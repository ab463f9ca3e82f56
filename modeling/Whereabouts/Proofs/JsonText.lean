import Mathlib
import Whereabouts.Json
import Whereabouts.Proofs.Digits

/-! # Reading JSON back

A reader of JSON that goes over the characters of a text once.  It keeps the containers that are
open, the innermost first, each with what was read of it (`Frame`), and where it stands in the
innermost one (`Parser`).  It takes white space between tokens wherever JSON allows it, and whole
numbers without leading zeros.

`ofText?_pretty` says that it reads every value back from its text.  A value is read over whatever
containers are open around it (`run_write`), so the induction goes through the value alone. -/

namespace Whereabouts
namespace Json

/-! ### The reader -/

/-- An open container with what was read of it. -/
inductive Frame where
  | array (items : List Json)
  /-- The name is that of a member whose value was not read yet. -/
  | object (fields : List (String × Json)) (name : Option String)

/-- Where a reader stands.  All but the last carry the containers that are open. -/
inductive Parser where
  /-- In front of a value or a name, `first` right behind the bracket that opened the container. -/
  | front (outer : List Frame) (first : Bool)
  /-- In a number, a truth value or null. -/
  | word (outer : List Frame) (read : List Char)
  | quoted (outer : List Frame) (read : List Char)
  /-- Behind a backslash. -/
  | escaped (outer : List Frame) (read : List Char)
  /-- In the four digits of a character. -/
  | coded (outer : List Frame) (read digits : List Char)
  | colon (outer : List Frame)
  /-- Behind a value. -/
  | behind (outer : List Frame)
  | finished (v : Json)

def isSpace (c : Char) : Bool := [' ', '\n', '\t', '\r'].contains c

/-- The value that a word stands for. -/
def ofWord? (read : List Char) : Option Json :=
  let text := String.ofList read
  if text = "null" then some null
  else if text = "true" then some (bool true)
  else if text = "false" then some (bool false)
  else text.toInt?.bind fun n => if toString n = text then some (number n) else none

/-- The character that a letter behind a backslash stands for. -/
def ofLetter? (c : Char) : Option Char :=
  [('"', '"'), ('\\', '\\'), ('/', '/'), ('b', Char.ofNat 8), ('f', Char.ofNat 12), ('n', '\n'),
    ('r', '\r'), ('t', '\t')].lookup c

/-- The character of a code.  The code of half a surrogate pair is refused. -/
def ofCode? (digits : List Char) : Option Char :=
  (Hex.toNat? digits).bind fun n => if n.isValidChar then some (Char.ofNat n) else none

namespace Parser

/-- Takes a value into the innermost container. -/
def put (v : Json) : List Frame → Option Parser
  | [] => some (finished v)
  | .array items :: outer => some (behind (.array (items ++ [v]) :: outer))
  | .object fields (some name) :: outer =>
      some (behind (.object (fields ++ [(name, v)]) none :: outer))
  | .object _ none :: _ => none

/-- Takes a text in quotes, which is a name or a value. -/
def putText (text : String) : List Frame → Option Parser
  | .object fields none :: outer => some (colon (.object fields (some text) :: outer))
  | outer => put (.string text) outer

def close (c : Char) : List Frame → Option Parser
  | .array items :: outer => if c = ']' then put (.array items) outer else none
  | .object fields none :: outer => if c = '\x7d' then put (.object fields) outer else none
  | _ => none

/-- What may stand behind a value. -/
def follow (p : Parser) (c : Char) : Option Parser :=
  match p with
  | behind outer =>
      if isSpace c then some (behind outer)
      else if c = ',' then some (front outer false)
      else close c outer
  | finished v => if isSpace c then some (finished v) else none
  | _ => none

/-- Whether a name comes next, and no value. -/
def namesNext : List Frame → Bool
  | .object _ none :: _ => true
  | _ => false

def isWordChar (c : Char) : Bool := c.isAlphanum || c = '-'

def step (p : Parser) (c : Char) : Option Parser :=
  match p with
  | front outer first =>
      if isSpace c then some (front outer first)
      else if c = '"' then some (quoted outer [])
      else if first ∧ (c = ']' ∨ c = '\x7d') then close c outer
      else if namesNext outer then none
      else if c = '[' then some (front (.array [] :: outer) true)
      else if c = '\x7b' then some (front (.object [] none :: outer) true)
      else if isWordChar c then some (word outer [c])
      else none
  | word outer read =>
      if isWordChar c then some (word outer (read ++ [c]))
      else do (← put (← ofWord? read) outer).follow c
  | quoted outer read =>
      if c = '"' then putText (String.ofList read) outer
      else if c = '\\' then some (escaped outer read)
      else if c.toNat < 32 then none
      else some (quoted outer (read ++ [c]))
  | escaped outer read =>
      if c = 'u' then some (coded outer read [])
      else (ofLetter? c).map fun c => quoted outer (read ++ [c])
  | coded outer read digits =>
      if digits.length < 3 then some (coded outer read (digits ++ [c]))
      else (ofCode? (digits ++ [c])).map fun c => quoted outer (read ++ [c])
  | colon outer =>
      if isSpace c then some (colon outer)
      else if c = ':' then some (front outer false)
      else none
  | p => p.follow c

def run (p : Parser) (text : List Char) : Option Parser := text.foldlM step p

/-- The value that was read, at the end of the text. -/
def result? : Parser → Option Json
  | finished v => some v
  | word [] read => ofWord? read
  | _ => none

end Parser

/-- The value of a text. -/
def ofText? (text : String) : Option Json :=
  (Parser.run (.front [] false) text.toList).bind Parser.result?

/-! ### Spaces, words and quotes -/

namespace Parser

@[simp] theorem run_nil (p : Parser) : p.run [] = some p := rfl

@[simp] theorem run_cons (p : Parser) (c : Char) (text : List Char) :
    p.run (c :: text) = (p.step c).bind fun q => q.run text := rfl

theorem run_append (p : Parser) (a b : List Char) :
    p.run (a ++ b) = (p.run a).bind fun q => q.run b := List.foldlM_append

theorem isSpace_of_mem_lineBreak {depth : Nat} {c : Char} (h : c ∈ (lineBreak depth).toList) :
    isSpace c = true := by
  have hspaces : ∀ n : Nat, c ∈ ("".pushn ' ' n).toList → c = ' ' := by
    intro n
    induction n with
    | zero => intro h; cases h
    | succ n ih =>
        intro h
        rw [show "".pushn ' ' (n + 1) = ("".pushn ' ' n).push ' ' from rfl, String.toList_push,
          List.mem_append] at h
        exact h.elim ih List.mem_singleton.mp
  rw [lineBreak, String.toList_append, List.mem_append] at h
  rcases h with h | h
  · rw [List.mem_singleton.mp h]
    rfl
  · rw [hspaces _ h]
    rfl

theorem run_lineBreak {p : Parser} (h : ∀ c, isSpace c = true → p.step c = some p) (depth : Nat) :
    p.run (lineBreak depth).toList = some p := by
  have hall : ∀ text : List Char, (∀ c ∈ text, isSpace c = true) → p.run text = some p := by
    intro text
    induction text with
    | nil => exact fun _ => rfl
    | cons c text ih =>
        intro hspace
        obtain ⟨hc, hrest⟩ := List.forall_mem_cons.mp hspace
        rw [run_cons, h c hc, Option.bind_some, ih hrest]
  exact hall _ fun c => isSpace_of_mem_lineBreak

variable {outer : List Frame}

theorem run_front_lineBreak (first : Bool) (depth : Nat) :
    (front outer first).run (lineBreak depth).toList = some (front outer first) :=
  run_lineBreak (fun c hc => by simp [step, hc]) depth

theorem run_behind_lineBreak (depth : Nat) :
    (behind outer).run (lineBreak depth).toList = some (behind outer) :=
  run_lineBreak (fun c hc => by simp [step, follow, hc]) depth

theorem run_escapeChar (read : List Char) (c : Char) :
    (quoted outer read).run (escapeChar c).toList = some (quoted outer (read ++ [c])) := by
  have hcode : ∀ n ∈ List.range 32,
      ofCode? ['0', '0', Hex.digit (n / 16), Hex.digit (n % 16)] = some (Char.ofNat n) := by
    decide +kernel
  unfold escapeChar
  split_ifs with hquote hslash hline htab hreturn hback hfeed hcontrol
  · rw [hquote]
    rfl
  · rw [hslash]
    rfl
  · rw [hline]
    rfl
  · rw [htab]
    rfl
  · rw [hreturn]
    rfl
  · rw [← Char.ofNat_toNat c, hback]
    rfl
  · rw [← Char.ofNat_toNat c, hfeed]
    rfl
  · have hc := hcode c.toNat (List.mem_range.mpr hcontrol)
    rw [Char.ofNat_toNat] at hc
    simp only [String.toList_append, String.toList_ofList]
    show ((ofCode? ['0', '0', _, _]).map fun c => quoted outer (read ++ [c])).bind _ = _
    rw [hc]
    rfl
  · rw [String.toList_singleton, run_cons]
    simp [step, hquote, hslash, hcontrol]

theorem toList_quote (text : String) :
    (quote text).toList = '"' :: (text.toList.flatMap fun c => (escapeChar c).toList) ++ ['"'] := by
  have hfold : ∀ (cs : List Char) (out : String),
      (cs.foldl (fun out c => out ++ escapeChar c) out).toList =
        out.toList ++ cs.flatMap fun c => (escapeChar c).toList := by
    intro cs
    induction cs with
    | nil => simp
    | cons c cs ih =>
        intro out
        rw [List.foldl_cons, ih, String.toList_append, List.flatMap_cons, List.append_assoc]
  rw [quote, String.toList_append, hfold]
  rfl

theorem run_quote (first : Bool) (text : String) :
    (front outer first).run (quote text).toList = putText text outer := by
  have hcharacters : ∀ (cs read : List Char),
      (quoted outer read).run (cs.flatMap fun c => (escapeChar c).toList) =
        some (quoted outer (read ++ cs)) := by
    intro cs
    induction cs with
    | nil => simp
    | cons c cs ih =>
        intro read
        rw [List.flatMap_cons, run_append, run_escapeChar, Option.bind_some, ih, List.append_assoc]
        rfl
  rw [toList_quote, List.cons_append, run_cons]
  show (quoted outer []).run _ = _
  rw [run_append, hcharacters, Option.bind_some, run_cons]
  show (putText (String.ofList text.toList) outer).bind _ = _
  rw [String.ofList_toList]
  exact Option.bind_fun_some _

/-! ### Words -/

theorem isWordChar_of_mem_repr {n : Int} {c : Char} (h : c ∈ (toString n).toList) :
    isWordChar c = true := by
  unfold isWordChar Char.isAlphanum
  rcases isDigit_or_sign_of_mem_repr h with hdigit | rfl
  · simp [hdigit]
  · rfl

theorem repr_ne {text : String} {c : Char} (hmem : c ∈ text.toList) (hdigit : c.isDigit = false)
    (hsign : c ≠ '-') (n : Int) : toString n ≠ text := by
  rintro rfl
  rcases isDigit_or_sign_of_mem_repr hmem with h | h
  · exact Bool.false_ne_true (hdigit.symm.trans h)
  · exact hsign h

theorem ofWord?_repr (n : Int) : ofWord? (toString n).toList = some (number n) := by
  have hsome : (toString n).toInt? = some n := Int.toInt?_repr n
  unfold ofWord?
  simp only [String.ofList_toList]
  rw [if_neg (repr_ne (c := 'n') (by decide) rfl (by decide) n),
    if_neg (repr_ne (c := 't') (by decide) rfl (by decide) n),
    if_neg (repr_ne (c := 'f') (by decide) rfl (by decide) n), hsome, Option.bind_some, if_pos rfl]

theorem run_word_front {first : Bool} (hnames : namesNext outer = false) {c : Char}
    {text : List Char} (h : ∀ b ∈ c :: text, isWordChar b = true) :
    (front outer first).run (c :: text) = some (word outer (c :: text)) := by
  obtain ⟨hc, hrest⟩ := List.forall_mem_cons.mp h
  have hne : ∀ b : Char, isWordChar b = false → c ≠ b := by
    rintro b hb rfl
    exact Bool.false_ne_true (hb.symm.trans hc)
  have hspace : isSpace c = false := by
    simp [isSpace, hne ' ' rfl, hne '\n' rfl, hne '\t' rfl, hne '\r' rfl]
  have hread : ∀ (text read : List Char), (∀ b ∈ text, isWordChar b = true) →
      (word outer read).run text = some (word outer (read ++ text)) := by
    intro text
    induction text with
    | nil => simp
    | cons b text ih =>
        intro read hall
        obtain ⟨hb, hall⟩ := List.forall_mem_cons.mp hall
        rw [run_cons, show (word outer read).step b = _ from if_pos hb, Option.bind_some, ih _ hall,
          List.append_assoc]
        rfl
  have hstep : (front outer first).step c = some (word outer [c]) := by
    simp [step, hspace, hnames, hc, hne '"' rfl, hne ']' rfl, hne '\x7d' rfl, hne '[' rfl,
      hne '\x7b' rfl]
  rw [run_cons, hstep, Option.bind_some, hread text [c] hrest]
  rfl

/-! ### Values -/

/-- The word of a value that has no brackets or quotes around it. -/
def wordOf? : Json → Option String
  | .null => some "null"
  | .bool b => some (if b then "true" else "false")
  | .number n => some (toString n)
  | _ => none

/-- Where a reader stands at the end of a value.  A word ends when something else follows. -/
def afterValue (v : Json) (outer : List Frame) : Option Parser :=
  match wordOf? v with
  | some text => some (word outer text.toList)
  | none => put v outer

theorem ofWord?_of_wordOf? {v : Json} {text : String} (h : wordOf? v = some text) :
    ofWord? text.toList = some v := by
  cases v with
  | null => exact Option.some.inj h ▸ rfl
  | bool b => cases b <;> exact Option.some.inj h ▸ rfl
  | number n => exact Option.some.inj h ▸ ofWord?_repr n
  | string _ => cases h
  | array _ => cases h
  | object _ => cases h

theorem step_eq_follow_of_put (v : Json) (c : Char) :
    ((put v outer).bind fun q => q.step c) = (put v outer).bind fun q => q.follow c := by
  unfold put
  split <;> rfl

/-- What is no part of a word ends the value. -/
theorem step_afterValue (v : Json) {c : Char} (hc : isWordChar c = false) :
    ((afterValue v outer).bind fun q => q.step c) = (put v outer).bind fun q => q.follow c := by
  unfold afterValue
  split
  · rename_i text htext
    rw [Option.bind_some, step, hc, ofWord?_of_wordOf? htext]
    rfl
  · exact step_eq_follow_of_put v c

section container

variable {v : Json} {outer' : List Frame} (h : put v outer = some (behind outer'))
include h

theorem run_afterValue_lineBreak (depth : Nat) (text : List Char) :
    ((afterValue v outer).bind fun q => q.run ((lineBreak depth).toList ++ text)) =
      (behind outer').run text := by
  have hfirst : (lineBreak depth).toList = '\n' :: ("".pushn ' ' (2 * depth)).toList := by
    rw [lineBreak, String.toList_append]
    rfl
  have hbehind := @run_behind_lineBreak outer' depth
  have hstep := @step_afterValue outer v '\n' rfl
  rw [hfirst, run_cons] at hbehind
  rw [hfirst, List.cons_append]
  simp only [run_cons]
  rw [← Option.bind_assoc, hstep, h, Option.bind_some]
  show (some (behind outer')).bind _ = _
  rw [Option.bind_some, run_append]
  rw [show (behind outer').step '\n' = some (behind outer') from rfl, Option.bind_some] at hbehind
  rw [hbehind, Option.bind_some]

theorem run_afterValue_comma (text : List Char) :
    ((afterValue v outer).bind fun q => q.run (',' :: text)) = (front outer' false).run text := by
  simp only [run_cons]
  rw [← Option.bind_assoc, step_afterValue v rfl, h]
  rfl

end container

/-! ### Everything that is written -/

theorem run_concat {p q : Parser} {out : String} (h : p.run out.toList = some q) (text : String) :
    p.run (out ++ text).toList = q.run text.toList := by
  rw [String.toList_append, run_append, h, Option.bind_some]

theorem run_wordOf? {v : Json} {text : String} {first : Bool} (hnames : namesNext outer = false)
    (h : wordOf? v = some text) :
    (front outer first).run text.toList = some (word outer text.toList) := by
  have hword : ∀ text : String, text ≠ "" → (∀ b ∈ text.toList, isWordChar b = true) →
      (front outer first).run text.toList = some (word outer text.toList) := by
    intro text hempty hall
    obtain ⟨c, cs, hcs⟩ := List.exists_cons_of_ne_nil (mt String.toList_eq_nil_iff.mp hempty)
    rw [hcs] at hall ⊢
    exact run_word_front hnames hall
  cases v with
  | null =>
      obtain rfl := Option.some.inj h
      exact hword "null" (by decide) (by simp [isWordChar])
  | bool b =>
      obtain rfl := Option.some.inj h
      cases b
      · exact hword "false" (by decide) (by simp [isWordChar])
      · exact hword "true" (by decide) (by simp [isWordChar])
  | number n =>
      obtain rfl := Option.some.inj h
      refine hword _ ?_ fun c => isWordChar_of_mem_repr
      intro hempty
      have hnumber : (toString n).toInt? = some n := Int.toInt?_repr n
      have hnone : "".toInt? = none := by cbv
      rw [hempty, hnone] at hnumber
      cases hnumber
  | string _ => cases h
  | array _ => cases h
  | object _ => cases h

theorem run_name {fields : List (String × Json)} {p : Parser} {out : String} {first : Bool}
    (depth : Nat)
    (h : p.run out.toList = some (front (.object fields none :: outer) first)) (name : String) :
    p.run (out ++ lineBreak depth ++ quote name ++ ": ").toList =
      some (front (.object fields (some name) :: outer) false) := by
  have hbreak : p.run (out ++ lineBreak depth).toList =
      some (front (.object fields none :: outer) first) :=
    (run_concat h _).trans (run_front_lineBreak first depth)
  have hname : p.run (out ++ lineBreak depth ++ quote name).toList =
      some (colon (.object fields (some name) :: outer)) :=
    (run_concat hbreak _).trans (run_quote first name)
  exact run_concat hname ": "

mutual

/-- A value is read where one can stand. -/
theorem run_write {outer : List Frame} {first : Bool} {p : Parser} {out : String}
    (hnames : namesNext outer = false) (depth : Nat) (v : Json)
    (h : p.run out.toList = some (front outer first)) :
    p.run (write depth out v).toList = afterValue v outer := by
  match v with
  | .null => exact (run_concat h _).trans (run_wordOf? (v := .null) hnames rfl)
  | .bool b => exact (run_concat h _).trans (run_wordOf? (v := .bool b) hnames rfl)
  | .number n => exact (run_concat h _).trans (run_wordOf? (v := .number n) hnames rfl)
  | .string text =>
      rw [write, run_concat h, run_quote, putText]
      · rfl
      · rintro fields outer rfl
        cases hnames
  | .array [] =>
      rw [write, run_concat h]
      show (((front outer first).step '[').bind fun q => q.run [']']) = _
      simp [step, isSpace, hnames, close, afterValue, wordOf?]
  | .object [] =>
      rw [write, run_concat h]
      show (((front outer first).step '\x7b').bind fun q => q.run ['\x7d']) = _
      simp [step, isSpace, hnames, close, afterValue, wordOf?]
  | .array (item :: items) =>
      have hopen : p.run (out ++ "[").toList = some (front (.array [] :: outer) true) := by
        rw [run_concat h]
        show (((front outer first).step '[').bind fun q => q.run []) = _
        simp [step, isSpace, hnames]
      have hbreak : p.run (out ++ "[" ++ lineBreak (depth + 1)).toList =
          some (front (.array [] :: outer) true) :=
        (run_concat hopen _).trans (run_front_lineBreak true (depth + 1))
      have hitem := run_write rfl (depth + 1) item hbreak
      rw [write]
      exact run_writeItems (depth + 1) depth items hitem
  | .object ((name, value) :: fields) =>
      have hopen : p.run (out ++ "\x7b").toList =
          some (front (.object [] none :: outer) true) := by
        rw [run_concat h]
        show (((front outer first).step '\x7b').bind fun q => q.run []) = _
        simp [step, isSpace, hnames]
      have hvalue := run_write rfl (depth + 1) value (run_name (depth + 1) hopen name)
      rw [write]
      exact run_writeFields (depth + 1) depth fields hvalue

theorem run_writeItems {outer : List Frame} {p : Parser} {out : String} {done : List Json}
    {last : Json} (inner depth : Nat) (items : List Json)
    (h : p.run out.toList = afterValue last (.array done :: outer)) :
    p.run (writeItems inner out items ++ lineBreak depth ++ "]").toList =
      put (.array (done ++ last :: items)) outer := by
  match items with
  | [] =>
      rw [writeItems, String.append_assoc, String.toList_append, run_append, h,
        String.toList_append, run_afterValue_lineBreak rfl depth]
      show ((close ']' (.array (done ++ [last]) :: outer)).bind fun q => q.run []) = _
      exact Option.bind_fun_some _
  | item :: items =>
      have hcomma : p.run (out ++ ",").toList =
          some (front (.array (done ++ [last]) :: outer) false) := by
        rw [String.toList_append, run_append, h]
        exact run_afterValue_comma rfl []
      have hbreak : p.run (out ++ "," ++ lineBreak inner).toList =
          some (front (.array (done ++ [last]) :: outer) false) :=
        (run_concat hcomma _).trans (run_front_lineBreak false inner)
      have hitem := run_write rfl inner item hbreak
      rw [writeItems, run_writeItems inner depth items hitem, List.append_assoc]
      rfl

theorem run_writeFields {outer : List Frame} {p : Parser} {out name : String}
    {done : List (String × Json)} {last : Json} (inner depth : Nat) (fields : List (String × Json))
    (h : p.run out.toList = afterValue last (.object done (some name) :: outer)) :
    p.run (writeFields inner out fields ++ lineBreak depth ++ "\x7d").toList =
      put (.object (done ++ (name, last) :: fields)) outer := by
  match fields with
  | [] =>
      rw [writeFields, String.append_assoc, String.toList_append, run_append, h,
        String.toList_append, run_afterValue_lineBreak rfl depth]
      show ((close '\x7d' (.object (done ++ [(name, last)]) none :: outer)).bind
        fun q => q.run []) = _
      exact Option.bind_fun_some _
  | (next, value) :: fields =>
      have hcomma : p.run (out ++ ",").toList =
          some (front (.object (done ++ [(name, last)]) none :: outer) false) := by
        rw [String.toList_append, run_append, h]
        exact run_afterValue_comma rfl []
      have hvalue := run_write rfl inner value (run_name inner hcomma next)
      rw [writeFields, run_writeFields inner depth fields hvalue, List.append_assoc]
      rfl

end

end Parser

/-- **A value is read back from its text.** -/
theorem ofText?_pretty (v : Json) : ofText? v.pretty = some v := by
  have hrun : (Parser.front [] false).run v.pretty.toList = Parser.afterValue v [] :=
    Parser.run_write rfl 0 v rfl
  unfold ofText?
  rw [hrun]
  unfold Parser.afterValue
  split
  · rename_i text htext
    exact Parser.ofWord?_of_wordOf? htext
  · rfl

end Json
end Whereabouts
