import Mathlib
import Whereabouts.Proofs.Digits
import Whereabouts.Proofs.Exposition

/-! # An exposition is read in one way

A reader that knows nothing of the samples gets them back from their text.  It parts the text at
the line breaks, reads the type from the first line and a sample from each other line: the value
stands behind the last space, the name in front of the first brace, and between the braces a pair
goes from its name to the quote that closes its value (`Exposition.sample?`).

The quote that closes a value is told from those inside by their backslashes.  The three
replacements that escape a value act on each character by itself, as the backslashes are doubled
first (`Labels.toList_escape`), so what is written for a character is read back as that character
whatever follows (`Exposition.value?_escapeChar`).  No line break is left in a value
(`Labels.break_not_mem_escape`), so no value ends its line.

`Exposition.render_unambiguous` puts it together: whatever the values of the labels are, the text
of a counter or a gauge is read as the samples that were touched. -/

namespace Whereabouts

/-- What the text of a family shows of one sample. -/
structure Sample where
  name : String
  pairs : List (String × String)
  value : Int
deriving DecidableEq, Repr

/-- What the text of a family shows. -/
structure Exposition where
  name : String
  type : String
  samples : List Sample
deriving DecidableEq, Repr

/-! ### Reading -/

namespace Exposition

/-- The text in front of the first sign of one kind and the text behind it. -/
def cutAt? (sign : Char) : List Char → Option (List Char × List Char)
  | [] => none
  | c :: text =>
      if c = sign then some ([], text)
      else (cutAt? sign text).map fun (front, behind) => (c :: front, behind)

/-- The text in front of the last sign of one kind and the text behind it. -/
def cutAtLast? (sign : Char) (text : List Char) : Option (List Char × List Char) :=
  (cutAt? sign text.reverse).map fun (behind, front) => (front.reverse, behind.reverse)

/-- The character that one behind a backslash stands for. -/
def plain? (c : Char) : Option Char :=
  if c = '\\' then some '\\'
  else if c = '"' then some '"'
  else if c = 'n' then some '\n'
  else none

/-- The value in front of the quote that closes it and the text behind that. -/
def value? : List Char → Option (List Char × List Char)
  | [] => none
  | '"' :: text => some ([], text)
  | ['\\'] => none
  | '\\' :: c :: text => do
      let plain ← plain? c
      let (value, behind) ← value? text
      return (plain :: value, behind)
  | c :: text => (value? text).map fun (value, behind) => (c :: value, behind)

/-- A pair, whose value stands in quotes, and the text behind it. -/
def pair? (text : List Char) : Option ((String × String) × List Char) :=
  match cutAt? '=' text with
  | some (name, '"' :: behind) =>
      (value? behind).map fun (value, behind) => ((.ofList name, .ofList value), behind)
  | _ => none

theorem length_of_cutAt? {sign : Char} {text front behind : List Char}
    (h : cutAt? sign text = some (front, behind)) : behind.length < text.length := by
  induction text generalizing front with
  | nil => cases h
  | cons c text ih =>
      rw [cutAt?] at h
      split_ifs at h
      · obtain ⟨-, rfl⟩ := Prod.mk.inj (Option.some.inj h)
        exact Nat.lt_succ_self _
      · obtain ⟨⟨front', behind'⟩, hcut, hpair⟩ := Option.map_eq_some_iff.mp h
        obtain ⟨-, rfl⟩ := Prod.mk.inj hpair
        exact Nat.lt_succ_of_lt (ih hcut)

theorem length_of_value? {text value behind : List Char}
    (h : value? text = some (value, behind)) : behind.length < text.length := by
  fun_induction value? text generalizing value with
  | case1 => cases h
  | case2 text =>
      obtain ⟨-, rfl⟩ := Prod.mk.inj (Option.some.inj h)
      exact Nat.lt_succ_self _
  | case3 => cases h
  | case4 c text ih =>
      obtain ⟨plain, -, h⟩ := Option.bind_eq_some_iff.mp h
      obtain ⟨⟨value', behind'⟩, hvalue, h⟩ := Option.bind_eq_some_iff.mp h
      obtain ⟨-, rfl⟩ := Prod.mk.inj (Option.some.inj h)
      exact Nat.lt_succ_of_lt (Nat.lt_succ_of_lt (ih hvalue))
  | case5 c text _ _ _ ih =>
      obtain ⟨⟨value', behind'⟩, hvalue, hpair⟩ := Option.map_eq_some_iff.mp h
      obtain ⟨-, rfl⟩ := Prod.mk.inj hpair
      exact Nat.lt_succ_of_lt (ih hvalue)

theorem length_of_pair? {text behind : List Char} {pair : String × String}
    (h : pair? text = some (pair, behind)) : behind.length < text.length := by
  unfold pair? at h
  split at h
  · rename_i name quoted hcut
    obtain ⟨⟨value, behind'⟩, hvalue, hpair⟩ := Option.map_eq_some_iff.mp h
    obtain ⟨-, rfl⟩ := Prod.mk.inj hpair
    have hname := length_of_cutAt? hcut
    have hquoted := length_of_value? hvalue
    rw [List.length_cons] at hname
    omega
  · cases h

/-- Pairs with commas between them, up to the brace behind the last, and the text behind that. -/
def pairs? (text : List Char) : Option (List (String × String) × List Char) :=
  match _h : pair? text with
  | some (pair, ',' :: text') =>
      (pairs? text').map fun (pairs, behind) => (pair :: pairs, behind)
  | some (pair, '\x7d' :: behind) => some ([pair], behind)
  | _ => none
termination_by text.length
decreasing_by
  have hlength := length_of_pair? ‹pair? text = some (pair, ',' :: text')›
  rw [List.length_cons] at hlength
  omega

/-- A name and the pairs in the braces behind it, of which there are none without braces. -/
def series? (text : List Char) : Option (String × List (String × String)) :=
  match cutAt? '\x7b' text with
  | none => some (.ofList text, [])
  | some (name, behind) =>
      match pairs? behind with
      | some (pairs, []) => some (.ofList name, pairs)
      | _ => none

/-- The sample of a line. -/
def sample? (line : List Char) : Option Sample := do
  let (series, number) ← cutAtLast? ' ' line
  let (name, pairs) ← series? series
  let value ← (String.ofList number).toInt?
  return ⟨name, pairs, value⟩

/-- The name and the type of a family, from the line of its type. -/
def type? (line : List Char) : Option (String × String) := do
  let named ← line.dropPrefix? "# TYPE ".toList
  let (name, type) ← cutAtLast? ' ' named
  return (.ofList name, .ofList type)

/-- What a text shows, each line of which has to end. -/
def ofText? (text : String) : Option Exposition :=
  match text.toList.splitOn '\n' with
  | first :: rest => do
      let (name, type) ← type? first
      let lines ← if rest.getLast? = some [] then some rest.dropLast else none
      let samples ← lines.mapM sample?
      return ⟨name, type, samples⟩
  | [] => none

/-! ### Reading back -/

theorem cutAt?_append {sign : Char} {front : List Char} (h : sign ∉ front) (behind : List Char) :
    cutAt? sign (front ++ sign :: behind) = some (front, behind) := by
  induction front with
  | nil => exact if_pos rfl
  | cons c front ih =>
      rw [List.mem_cons, not_or] at h
      rw [List.cons_append, cutAt?, if_neg (Ne.symm h.1), ih h.2]
      rfl

theorem cutAt?_eq_none {sign : Char} {text : List Char} (h : sign ∉ text) :
    cutAt? sign text = none := by
  induction text with
  | nil => rfl
  | cons c text ih =>
      rw [List.mem_cons, not_or] at h
      rw [cutAt?, if_neg (Ne.symm h.1), ih h.2]
      rfl

theorem cutAtLast?_append {sign : Char} {behind : List Char} (h : sign ∉ behind)
    (front : List Char) : cutAtLast? sign (front ++ sign :: behind) = some (front, behind) := by
  have hreverse : (front ++ sign :: behind).reverse = behind.reverse ++ sign :: front.reverse := by
    simp
  rw [cutAtLast?, hreverse, cutAt?_append (by simpa using h)]
  simp

/-- What is written for a character of a value is read back as it, whatever follows. -/
theorem value?_escapeChar (c : Char) (text : List Char) :
    value? (Labels.escapeChar c ++ text) =
      (value? text).map fun (value, behind) => (c :: value, behind) := by
  have hescaped : ∀ d, plain? d = some c → value? ('\\' :: d :: text) =
      (value? text).map fun (value, behind) => (c :: value, behind) := by
    intro d hplain
    rw [value?, hplain]
    cases value? text <;> rfl
  unfold Labels.escapeChar
  split_ifs with hslash hquote hbreak
  · exact hescaped '\\' (by rw [hslash]; rfl)
  · exact hescaped '"' (by rw [hquote]; rfl)
  · exact hescaped 'n' (by rw [hbreak]; rfl)
  · exact value?.eq_5 c text hquote (fun h _ => hslash h) fun _ _ h _ => hslash h

theorem value?_escape (value behind : List Char) :
    value? (value.flatMap Labels.escapeChar ++ '"' :: behind) = some (value, behind) := by
  induction value with
  | nil => rfl
  | cons c value ih =>
      rw [List.flatMap_cons, List.append_assoc, value?_escapeChar, ih]
      rfl

end Exposition

/-! ### Names and values -/

namespace Labels

/-- Whether a text is the name of a label: letters of ASCII, digits and underscores, the first of
which is no digit. -/
def IsName (name : String) : Prop :=
  name.toList.head?.any (fun c => c.isAlpha || c == '_') = true ∧
    name.toList.all (fun c => c.isAlphanum || c == '_') = true

/-- Whether all pairs have the name of a label. -/
def Named (pairs : List (String × String)) : Prop := ∀ pair ∈ pairs, IsName pair.1

theorem not_mem_of_isName {name : String} (h : IsName name) {c : Char}
    (hc : (c.isAlphanum || c == '_') = false) : c ∉ name.toList :=
  fun hmem => Bool.false_ne_true (hc.symm.trans (List.all_eq_true.mp h.2 c hmem))

/-- The text with others in place of one character. -/
def replace (c : Char) (others text : List Char) : List Char :=
  text.flatMap fun d => if d = c then others else [d]

/-- Values are escaped by three replacements: backslashes are doubled, and then a backslash is put
in front of quotes and in place of line breaks.  In another order the new backslashes would be
doubled as well. -/
theorem toList_escape (value : String) :
    (escape value).toList =
      replace '\n' ['\\', 'n'] (replace '"' ['\\', '"']
        (replace '\\' ['\\', '\\'] value.toList)) := by
  unfold replace
  rw [escape, String.toList_ofList, List.flatMap_assoc, List.flatMap_assoc]
  congr 1
  funext c
  unfold escapeChar
  split_ifs with hslash hquote hbreak
  · rfl
  · simp [hquote]
  · simp [hbreak]
  · simp [hquote, hbreak]

theorem break_not_mem_escape (value : String) : '\n' ∉ (escape value).toList := by
  rw [escape, String.toList_ofList, List.mem_flatMap]
  rintro ⟨c, -, hc⟩
  unfold escapeChar at hc
  split_ifs at hc with _ _ hbreak
  · simp at hc
  · simp at hc
  · simp at hc
  · exact hbreak (List.mem_singleton.mp hc).symm

theorem toList_renderPair (pair : String × String) :
    (renderPair pair).toList =
      pair.1.toList ++ '=' :: '"' :: (pair.2.toList.flatMap escapeChar ++ ['"']) := by
  simp [renderPair, escape]

theorem break_not_mem_renderPair {pair : String × String} (h : IsName pair.1) :
    '\n' ∉ (renderPair pair).toList := by
  have hname := not_mem_of_isName h (c := '\n') (by decide)
  have hvalue := break_not_mem_escape pair.2
  simp [renderPair, hname, hvalue]

/-- The text of pairs with commas between them. -/
def joined : List (String × String) → List Char
  | [] => []
  | [pair] => (renderPair pair).toList
  | pair :: next :: pairs => (renderPair pair).toList ++ ',' :: joined (next :: pairs)

theorem toList_render (labels : Labels) : labels.render.toList = joined labels.pairs := by
  rw [render, String.toList_intercalate, List.map_map]
  generalize labels.pairs = pairs
  fun_induction joined pairs with
  | case1 => rfl
  | case2 pair => exact List.intercalate_singleton
  | case3 pair next pairs ih =>
      have hrest : (next :: pairs).map (String.toList ∘ renderPair) ≠ [] := List.cons_ne_nil _ _
      rw [List.map_cons, List.intercalate_cons_of_ne_nil hrest, ih, List.append_assoc]
      rfl

theorem joined_eq_nil_iff (pairs : List (String × String)) : joined pairs = [] ↔ pairs = [] := by
  fun_cases joined pairs with
  | case1 => simp
  | case2 pair => simp [toList_renderPair]
  | case3 pair next pairs => simp

theorem break_not_mem_joined {pairs : List (String × String)} (h : Named pairs) :
    '\n' ∉ joined pairs := by
  fun_induction joined pairs with
  | case1 => exact List.not_mem_nil
  | case2 pair => exact break_not_mem_renderPair (h pair List.mem_cons_self)
  | case3 pair next pairs ih =>
      have hpair := break_not_mem_renderPair (h pair List.mem_cons_self)
      have hrest := ih fun other hother => h other (List.mem_cons_of_mem pair hother)
      simp [hpair, hrest]

end Labels

namespace Exposition

theorem pair?_renderPair {pair : String × String} (h : Labels.IsName pair.1) (text : List Char) :
    pair? ((Labels.renderPair pair).toList ++ text) = some (pair, text) := by
  have hsign := Labels.not_mem_of_isName h (c := '=') (by decide)
  have hcut := cutAt?_append hsign ('"' :: (pair.2.toList.flatMap Labels.escapeChar ++ '"' :: text))
  rw [Labels.toList_renderPair]
  simp only [List.append_assoc, List.cons_append, List.nil_append]
  rw [pair?, hcut]
  show (value? _).map _ = _
  rw [value?_escape]
  simp

theorem pairs?_of_comma {text text' : List Char} {pair : String × String}
    (h : pair? text = some (pair, ',' :: text')) :
    pairs? text = (pairs? text').map fun (pairs, behind) => (pair :: pairs, behind) := by
  rw [pairs?]
  split
  · rename_i hread
    obtain ⟨rfl, hbehind⟩ := Prod.mk.inj (Option.some.inj (h.symm.trans hread))
    obtain ⟨-, rfl⟩ := List.cons.inj hbehind
    rfl
  · rename_i hread
    cases h.symm.trans hread
  · rename_i hother _
    exact absurd h (hother pair text')

theorem pairs?_of_brace {text behind : List Char} {pair : String × String}
    (h : pair? text = some (pair, '\x7d' :: behind)) : pairs? text = some ([pair], behind) := by
  rw [pairs?]
  split
  · rename_i hread
    cases h.symm.trans hread
  · rename_i hread
    obtain ⟨rfl, hbehind⟩ := Prod.mk.inj (Option.some.inj (h.symm.trans hread))
    obtain ⟨-, rfl⟩ := List.cons.inj hbehind
    rfl
  · rename_i _ hother
    exact absurd h (hother pair behind)

theorem pairs?_joined {pairs : List (String × String)} (hpairs : pairs ≠ [])
    (h : Labels.Named pairs) (text : List Char) :
    pairs? (Labels.joined pairs ++ '\x7d' :: text) = some (pairs, text) := by
  fun_induction Labels.joined pairs with
  | case1 => exact absurd rfl hpairs
  | case2 pair => exact pairs?_of_brace (pair?_renderPair (h pair List.mem_cons_self) _)
  | case3 pair next pairs ih =>
      have hread := pair?_renderPair (h pair List.mem_cons_self)
        (',' :: (Labels.joined (next :: pairs) ++ '\x7d' :: text))
      have hrest := ih (List.cons_ne_nil _ _) fun other hother =>
        h other (List.mem_cons_of_mem pair hother)
      rw [List.append_assoc, List.cons_append, pairs?_of_comma hread, hrest]
      rfl

end Exposition

/-! ### Lines -/

namespace Family

theorem isEmpty_render_iff (labels : Labels) : labels.render.isEmpty = true ↔ labels.pairs = [] := by
  rw [String.isEmpty_iff, ← String.toList_inj, Labels.toList_render]
  exact Labels.joined_eq_nil_iff labels.pairs

theorem seriesText_of_eq_nil (name : String) {labels : Labels} (h : labels.pairs = []) :
    seriesText name labels = name :=
  if_pos ((isEmpty_render_iff labels).mpr h)

theorem toList_seriesText (name : String) {labels : Labels} (h : labels.pairs ≠ []) :
    (seriesText name labels).toList =
      name.toList ++ '\x7b' :: (Labels.joined labels.pairs ++ ['\x7d']) := by
  rw [seriesText, if_neg (mt (isEmpty_render_iff labels).mp h), ← Labels.toList_render]
  simp

/-- Labels are told apart by what stands in front of the number, whatever the name is. -/
theorem seriesText_inj (name : String) {a b : Labels} (ha : Labels.Named a.pairs)
    (hb : Labels.Named b.pairs) (h : seriesText name a = seriesText name b) : a.pairs = b.pairs := by
  have hlist := congrArg String.toList h
  by_cases hanil : a.pairs = []
  · by_cases hbnil : b.pairs = []
    · rw [hanil, hbnil]
    · rw [seriesText_of_eq_nil name hanil, toList_seriesText name hbnil] at hlist
      cases List.self_eq_append_right.mp hlist
  · by_cases hbnil : b.pairs = []
    · rw [seriesText_of_eq_nil name hbnil, toList_seriesText name hanil] at hlist
      cases List.self_eq_append_right.mp hlist.symm
    · rw [toList_seriesText name hanil, toList_seriesText name hbnil] at hlist
      have hpairs := (List.cons.inj (List.append_cancel_left hlist)).2
      have hread := Exposition.pairs?_joined hanil ha []
      rw [hpairs, Exposition.pairs?_joined hbnil hb []] at hread
      exact (Prod.mk.inj (Option.some.inj hread)).1.symm

end Family

namespace Exposition

/-- Whether a name can stand in front of braces in a line: it has no such brace and no line break. -/
def IsPlain (name : String) : Prop := '\x7b' ∉ name.toList ∧ '\n' ∉ name.toList

instance (name : String) : Decidable (IsPlain name) := inferInstanceAs (Decidable (_ ∧ _))

theorem series?_seriesText {name : String} (hname : IsPlain name) {labels : Labels}
    (h : Labels.Named labels.pairs) :
    series? (Family.seriesText name labels).toList = some (name, labels.pairs) := by
  by_cases hnil : labels.pairs = []
  · rw [Family.seriesText_of_eq_nil name hnil, series?, cutAt?_eq_none hname.1, hnil]
    simp
  · rw [Family.toList_seriesText name hnil, series?, cutAt?_append hname.1]
    dsimp only
    rw [pairs?_joined hnil h []]
    simp

/-- Whether numbers are shown by texts that stand for them and are one word of a line. -/
def Numerals (shown : UInt64 → String) (value : UInt64 → Int) : Prop :=
  ∀ w, (shown w).toInt? = some (value w) ∧ ' ' ∉ (shown w).toList ∧ '\n' ∉ (shown w).toList

theorem not_mem_repr (n : Int) {c : Char} (hc : c.isDigit = false) (hsign : c ≠ '-') :
    c ∉ n.repr.toList := by
  intro hmem
  rcases isDigit_or_sign_of_mem_repr hmem with h | h
  · exact Bool.false_ne_true (hc.symm.trans h)
  · exact hsign h

theorem numerals_of_repr {shown : UInt64 → String} {value : UInt64 → Int}
    (h : ∀ w, shown w = (value w).repr) : Numerals shown value := by
  intro w
  rw [h w]
  exact ⟨Int.toInt?_repr _, not_mem_repr _ (by decide) (by decide),
    not_mem_repr _ (by decide) (by decide)⟩

theorem numerals_counter : Numerals (fun w => toString w) fun w => w.toNat :=
  numerals_of_repr fun _ => rfl

theorem numerals_gauge : Numerals (fun w => toString w.toInt64) fun w => w.toInt64.toInt :=
  numerals_of_repr fun _ => rfl

variable {shown : UInt64 → String} {value : UInt64 → Int} {name type : String}

theorem sample?_sampleLine (hshown : Numerals shown value) (hname : IsPlain name)
    {cell : Labels × UInt64} (h : Labels.Named cell.1.pairs) :
    sample? (Family.sampleLine shown name cell).toList =
      some ⟨name, cell.1.pairs, value cell.2⟩ := by
  obtain ⟨hvalue, hspace, -⟩ := hshown cell.2
  have hline : (Family.sampleLine shown name cell).toList =
      (Family.seriesText name cell.1).toList ++ ' ' :: (shown cell.2).toList := by
    rw [Family.sampleLine_eq]
    simp
  rw [hline, sample?, cutAtLast?_append hspace]
  simp only [Option.bind_eq_bind, Option.bind_some, series?_seriesText hname h,
    String.ofList_toList, hvalue]
  rfl

theorem break_not_mem_sampleLine (hshown : Numerals shown value) (hname : IsPlain name)
    {cell : Labels × UInt64} (h : Labels.Named cell.1.pairs) :
    '\n' ∉ (Family.sampleLine shown name cell).toList := by
  obtain ⟨-, -, hbreak⟩ := hshown cell.2
  have hseries : '\n' ∉ (Family.seriesText name cell.1).toList := by
    by_cases hnil : cell.1.pairs = []
    · rw [Family.seriesText_of_eq_nil name hnil]
      exact hname.2
    · rw [Family.toList_seriesText name hnil]
      simp [hname.2, Labels.break_not_mem_joined h]
  rw [Family.sampleLine_eq]
  simp [hseries, hbreak]

/-! ### Texts -/

theorem splitOn_lines {lines : List String} (h : ∀ line ∈ lines, '\n' ∉ line.toList) :
    (String.join (lines.map fun line => line ++ "\n")).toList.splitOn '\n' =
      lines.map String.toList ++ [[]] := by
  induction lines with
  | nil => rfl
  | cons line lines ih =>
      have hline := h line List.mem_cons_self
      have hrest := ih fun other hother => h other (List.mem_cons_of_mem line hother)
      have htext : (String.join ((line :: lines).map fun line => line ++ "\n")).toList =
          line.toList ++ '\n' :: (String.join (lines.map fun line => line ++ "\n")).toList := by
        simp
      rw [htext, List.splitOn_append_cons_self_of_not_mem hline, hrest]
      rfl

theorem type?_typeLine (name : String) (htype : ' ' ∉ type.toList) :
    type? ("# TYPE " ++ name ++ " " ++ type).toList = some (name, type) := by
  have hline : ("# TYPE " ++ name ++ " " ++ type).toList =
      "# TYPE ".toList ++ (name.toList ++ ' ' :: type.toList) := by
    simp
  have hnamed : ("# TYPE " ++ name ++ " " ++ type).toList.dropPrefix? "# TYPE ".toList =
      some (name.toList ++ ' ' :: type.toList) := by
    rw [hline, List.dropPrefix?_eq_some_iff]
    exact ⟨_, rfl, beq_self_eq_true _⟩
  rw [type?, hnamed]
  simp [cutAtLast?_append htype]

theorem mapM_of_forall₂ {α β : Type} {f : α → Option β} {as : List α} {bs : List β}
    (h : List.Forall₂ (fun a b => f a = some b) as bs) : as.mapM f = some bs := by
  induction h with
  | nil => rfl
  | cons hab _ ih =>
      rw [List.mapM_cons, hab, ih]
      rfl

/-- Whether a text shows these samples and nothing else: behind the line of the type there is one
line for each of them, which is read as that sample, and each line is ended by its line break. -/
def Shows (text name type : String) (expected : List Sample) : Prop :=
  ∃ lines samples,
    text.toList.splitOn '\n' =
      ("# TYPE " ++ name ++ " " ++ type).toList :: (lines ++ [[]]) ∧
    List.Forall₂ (fun line sample => sample? line = some sample) lines samples ∧
    samples.Perm expected ∧ ofText? text = some ⟨name, type, samples⟩

/-- **The text of a family is read as its samples.** -/
theorem shows_render (hshown : Numerals shown value) (hname : IsPlain name)
    (htype : ' ' ∉ type.toList ∧ '\n' ∉ type.toList) {f : Family}
    (h : ∀ cell ∈ f.cells, Labels.Named cell.1.pairs) :
    Shows (f.render shown name type) name type
      (f.cells.map fun cell => ⟨name, cell.1.pairs, value cell.2⟩) := by
  have hperm : ((f.sampleLines shown name).map String.toList).Perm
      (f.cells.map fun cell => (Family.sampleLine shown name cell).toList) := by
    have hlines : (f.sampleLines shown name).Perm (f.cells.map (Family.sampleLine shown name)) :=
      List.mergeSort_perm _ _
    have htexts := hlines.map String.toList
    rwa [List.map_map] at htexts
  have hread : List.Forall₂ (fun line sample => sample? line = some sample)
      (f.cells.map fun cell => (Family.sampleLine shown name cell).toList)
      (f.cells.map fun cell => ⟨name, cell.1.pairs, value cell.2⟩) := by
    rw [List.forall₂_map_left_iff, List.forall₂_map_right_iff, List.forall₂_same]
    exact fun cell hcell => sample?_sampleLine hshown hname (h cell hcell)
  obtain ⟨samples, hsamples, hexpected⟩ := List.perm_comp_forall₂ hperm hread
  have hbreaks : ∀ line ∈ ("# TYPE " ++ name ++ " " ++ type) :: f.sampleLines shown name,
      '\n' ∉ line.toList := by
    intro line hline
    obtain rfl | hline := List.mem_cons.mp hline
    · simp [hname.2, htype.2]
    · obtain ⟨cell, hcell, rfl⟩ := List.mem_map.mp (List.mem_mergeSort.mp hline)
      exact break_not_mem_sampleLine hshown hname (h cell hcell)
  have hsplit : (f.render shown name type).toList.splitOn '\n' =
      ("# TYPE " ++ name ++ " " ++ type).toList ::
        ((f.sampleLines shown name).map String.toList ++ [[]]) :=
    splitOn_lines hbreaks
  refine ⟨_, samples, hsplit, hsamples, hexpected, ?_⟩
  have hlast : ((f.sampleLines shown name).map String.toList ++ [[]]).getLast? = some [] := by
    simp
  rw [ofText?, hsplit]
  simp only [type?_typeLine name htype.1, hlast, List.dropLast_concat, mapM_of_forall₂ hsamples,
    Option.bind_eq_bind, Option.bind_some, if_true]
  rfl

theorem named_of_mem_touched {additions : List Addition} (h : ∀ a ∈ additions, Labels.Named a.pairs)
    {labels : Labels} (hlabels : labels ∈ Addition.touched additions) :
    Labels.Named labels.pairs := by
  obtain ⟨a, ha, rfl⟩ := List.mem_map.mp (List.mem_dedup.mp hlabels)
  exact fun pair hpair => h a ha pair (List.mem_mergeSort.mp hpair)

/-- The text of a family tells what was added under each set of labels that was touched. -/
theorem shows_run (hshown : Numerals shown value) (hname : IsPlain name)
    (htype : ' ' ∉ type.toList ∧ '\n' ∉ type.toList) {additions : List Addition} {f : Family}
    (hcells : (Family.run additions).cells.Perm f.cells)
    (h : ∀ a ∈ additions, Labels.Named a.pairs) :
    Shows (f.render shown name type) name type
      ((Addition.touched additions).map fun labels =>
        ⟨name, labels.pairs, value ((Family.run additions).get labels.pairs)⟩) := by
  have hperm := hcells.symm.trans (Family.perm_cells_run additions)
  have hnamed : ∀ cell ∈ f.cells, Labels.Named cell.1.pairs := by
    intro cell hcell
    obtain ⟨labels, hlabels, rfl⟩ := List.mem_map.mp (hperm.mem_iff.mp hcell)
    exact named_of_mem_touched h hlabels
  obtain ⟨lines, samples, hsplit, hread, hsamples, htext⟩ := shows_render hshown hname htype hnamed
  have hexpected := hperm.map fun cell => (⟨name, cell.1.pairs, value cell.2⟩ : Sample)
  rw [List.map_map] at hexpected
  exact ⟨lines, samples, hsplit, hread, hsamples.trans hexpected, htext⟩

/-- **An exposition is read in one way.**  Whatever the values of the labels are, the text of a
counter or a gauge has one line for each set of labels that was touched, from which the name, the
pairs in order and the number are read, and nothing else; the samples may be kept in any order.
What stands in front of the number tells labels apart.  Values are escaped by three replacements,
and the names of the registry are plain. -/
theorem render_unambiguous :
    (∀ (ops : List Counter.Op) (c : Counter) (name : String),
      (Counter.run ops).words.cells.Perm c.words.cells → IsPlain name →
      (∀ op ∈ ops, Labels.Named op.pairs) →
        Shows (c.render name) name "counter"
          ((Addition.touched (ops.map Counter.Op.addition)).map fun labels =>
            ⟨name, labels.pairs, ((Counter.run ops).get labels.pairs).toNat⟩)) ∧
    (∀ (ops : List Gauge.Op) (g : Gauge) (name : String),
      (Gauge.run ops).words.cells.Perm g.words.cells → IsPlain name →
      (∀ op ∈ ops, Labels.Named op.pairs) →
        Shows (g.render name) name "gauge"
          ((Addition.touched (ops.map Gauge.Op.addition)).map fun labels =>
            ⟨name, labels.pairs, ((Gauge.run ops).get labels.pairs).toInt⟩)) ∧
    (∀ (name : String) (a b : List (String × String)), Labels.Named a → Labels.Named b →
      Family.seriesText name (.ofList a) = Family.seriesText name (.ofList b) → a.Perm b) ∧
    (∀ (shown : UInt64 → String) (name : String) (cell : Labels × UInt64),
      Family.sampleLine shown name cell = Family.seriesText name cell.1 ++ " " ++ shown cell.2) ∧
    (∀ value : String, (Labels.escape value).toList =
      Labels.replace '\n' ['\\', 'n'] (Labels.replace '"' ['\\', '"']
        (Labels.replace '\\' ['\\', '\\'] value.toList))) ∧
    ∀ meter : Metrics.Meter, IsPlain meter.name := by
  refine ⟨?_, ?_, ?_, Family.sampleLine_eq, Labels.toList_escape, ?_⟩
  · intro ops c name hcells hname hops
    rw [Counter.words_run] at hcells
    have hnamed : ∀ a ∈ ops.map Counter.Op.addition, Labels.Named a.pairs :=
      List.forall_mem_map.mpr hops
    have htype : ' ' ∉ "counter".toList ∧ '\n' ∉ "counter".toList := by decide
    have hshows := shows_run numerals_counter hname htype hcells hnamed
    rwa [← Counter.words_run] at hshows
  · intro ops g name hcells hname hops
    rw [Gauge.words_run] at hcells
    have hnamed : ∀ a ∈ ops.map Gauge.Op.addition, Labels.Named a.pairs :=
      List.forall_mem_map.mpr hops
    have htype : ' ' ∉ "gauge".toList ∧ '\n' ∉ "gauge".toList := by decide
    have hshows := shows_run numerals_gauge hname htype hcells hnamed
    rwa [← Gauge.words_run] at hshows
  · intro name a b ha hb h
    have hsorted : ∀ pairs : List (String × String), Labels.Named pairs →
        Labels.Named (Labels.ofList pairs).pairs :=
      fun pairs hpairs pair hpair => hpairs pair (List.mem_mergeSort.mp hpair)
    have hpairs := Family.seriesText_inj name (hsorted a ha) (hsorted b hb) h
    rw [← Labels.ofList_eq_ofList_iff, ← Labels.ofList_pairs (.ofList a), hpairs,
      Labels.ofList_pairs]
  · rintro (t | _)
    · cases t <;> decide +kernel
    · decide +kernel

/-- A value that would close its quotes and end its line, if it was not escaped. -/
def forgery : String := "\"\x7d 9\nx\x7bh=\""

/-- Pairs in no order. -/
def disordered : List (String × String) := [("k", "\\"), ("h", ",=\n")]

/-- Operations under such labels, and one that adds nothing. -/
def forgedOps : List Counter.Op := [.inc [("h", forgery)], .add [] 0, .inc disordered]

theorem render_unambiguous_forged :
    IsPlain "x" ∧ (∀ op ∈ forgedOps, Labels.Named op.pairs) ∧
      Shows ((Counter.run forgedOps).render "x") "x" "counter"
        [⟨"x", [("h", forgery)], 1⟩, ⟨"x", [], 0⟩, ⟨"x", disordered.reverse, 1⟩] ∧
      Shows ((Gauge.run [.dec []]).render "x") "x" "gauge" [⟨"x", [], -1⟩] ∧
      disordered.Perm disordered.reverse := by
  have hplain : IsPlain "x" := by decide
  have hh : Labels.IsName "h" := ⟨by cbv, by cbv⟩
  have hk : Labels.IsName "k" := ⟨by cbv, by cbv⟩
  have hdisordered : Labels.Named disordered :=
    List.forall_mem_cons.mpr ⟨hk, List.forall_mem_singleton.mpr hh⟩
  have hempty : Labels.Named [] := fun _ hpair => absurd hpair List.not_mem_nil
  have hnamed : ∀ op ∈ forgedOps, Labels.Named op.pairs :=
    List.forall_mem_cons.mpr ⟨List.forall_mem_singleton.mpr hh,
      List.forall_mem_cons.mpr ⟨hempty, List.forall_mem_singleton.mpr hdisordered⟩⟩
  have hcounter := render_unambiguous.1 forgedOps _ "x" (.refl _) hplain hnamed
  have hsamples : (Addition.touched (forgedOps.map Counter.Op.addition)).map (fun labels =>
      (⟨"x", labels.pairs, ((Counter.run forgedOps).get labels.pairs).toNat⟩ : Sample)) =
      [⟨"x", [("h", forgery)], 1⟩, ⟨"x", [], 0⟩, ⟨"x", disordered.reverse, 1⟩] := by
    simp only [Counter.toNat_get_run]
    cbv
  rw [hsamples] at hcounter
  have hgauge := render_unambiguous.2.1 [.dec []] _ "x" (.refl _) hplain
    (List.forall_mem_singleton.mpr hempty)
  have hsample : (Addition.touched ([.dec []].map Gauge.Op.addition)).map (fun labels =>
      (⟨"x", labels.pairs, ((Gauge.run [.dec []]).get labels.pairs).toInt⟩ : Sample)) =
      [⟨"x", [], -1⟩] := by
    simp only [Gauge.toInt_get_run]
    cbv
  rw [hsample] at hgauge
  have hback : Labels.ofList disordered = .ofList disordered.reverse :=
    (Labels.ofList_eq_ofList_iff _ _).mpr (List.reverse_perm _).symm
  exact ⟨hplain, hnamed, hcounter, hgauge,
    render_unambiguous.2.2.1 "x" _ _ hdisordered
      (fun pair hpair => hdisordered pair (List.mem_reverse.mp hpair)) (congrArg _ hback)⟩

end Exposition

end Whereabouts
