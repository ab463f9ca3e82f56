import Whereabouts.Capability.Block
import Whereabouts.Proofs.Checked.Reads

/-! # Checked capability blocks

A machine reads a block of identifiers twice, for features and then for icons, and keeps the
numbers of those that it did not find (`Pass`).  A short block is read once, and each short
identifier that is not found is counted on the way.

`follows_scan` and `follows_scanShort` say that both give what the library gives, with the count
of what it lists as unmatched. -/

namespace Whereabouts
namespace Checked

/-! ### Loops over parts -/

/-- Reads `left` parts of `width` octets, the first of which has a number, and puts each into
`step`. -/
def forParts {σ : Type} (width : Nat) (step : Nat → Bytes → σ → Checked σ) :
    Nat → Nat → σ → Checked σ
  | 0, _, s => pure s
  | left + 1, number, s => do
      match ← observing (exactly width) with
      | .ok part => forParts width step left (number + 1) (← step number part s)
      | .error _ => return s

/-- What is known in the midst of a block. -/
structure Pass where
  features : Features := .none
  icon : Option Icon := none
  /-- The numbers of the identifiers that were not found so far. -/
  misses : List Nat := []
  /-- The identifiers that are reported. -/
  unmatched : List Bytes := []

/-- Looks an identifier up among the capabilities. -/
def Pass.first (cat : Catalogue) (number : Nat) (id : Bytes) (s : Pass) : Pass :=
  match cat.features? id with
  | some f => { s with features := s.features.union f }
  | none => { s with misses := s.misses ++ [number] }

/-- Looks an identifier up among the icons. -/
def Pass.second (cat : Catalogue) (number : Nat) (id : Bytes) (s : Pass) : Pass :=
  match cat.icon? id with
  | some icon =>
      { s with
        icon := if s.icon.isNone then some icon else s.icon
        misses := s.misses.filter (· ≠ number) }
  | none => if number ∈ s.misses then { s with unmatched := s.unmatched ++ [id] } else s

/-- Reads at most `length` octets as a block of identifiers, and counts the unmatched. -/
def scan (cat : Catalogue) (length : Nat) : Checked (Scan × Nat) := do
  let f ← get
  let left ← remaining
  let stop ← add f.position (min length left)
  let room ← sub stop f.position
  let count := room / Identifier.width
  let first ← forParts Identifier.width (fun n id s => pure (Pass.first cat n id s)) count 0 {}
  seek f.position
  let second ← forParts Identifier.width (fun n id s => pure (Pass.second cat n id s)) count 0 first
  seek stop
  return (⟨second.features, second.icon, second.unmatched⟩, second.misses.length)

/-- Looks a short identifier up. -/
def short (cat : Catalogue) (id : Bytes) (s : Scan × Nat) : Checked (Scan × Nat) := do
  match cat.shortFeatures? id with
  | some f => return ({ s.1 with features := s.1.features.union f }, s.2)
  | none =>
      let count ← add s.2 1
      return ({ s.1 with unmatched := s.1.unmatched ++ [id] }, count)

/-- Reads at most `length` octets as a block of short identifiers, and counts the unmatched. -/
def scanShort (cat : Catalogue) (length : Nat) : Checked (Scan × Nat) := do
  let f ← get
  let left ← remaining
  let stop ← add f.position (min length left)
  let room ← sub stop f.position
  let s ← forParts Identifier.shortWidth (fun _ => short cat) (room / Identifier.shortWidth) 0
    (⟨.none, none, []⟩, 0)
  seek stop
  return s

/-! ### What a loop does -/

variable {σ : Type} {width : Nat} {step : Nat → Bytes → σ → Checked σ}
  {next : Nat → Bytes → σ → σ} {P : Nat → σ → Prop} {c : Cursor}

/-- A loop over parts that are there does each step once, if what the steps need is kept. -/
theorem runs_forParts {bound : Nat}
    (hstep : ∀ n part s c, n < bound → P n s →
      Runs (step n part s) c (next n part s) c ∧ P (n + 1) (next n part s))
    {left number : Nat} {s : σ} {block rest : Bytes} (hbound : number + left ≤ bound)
    (hs : P number s) (hc : c.Addressable) (hunread : c.unread = block ++ rest)
    (hleft : left * width ≤ block.length) :
    Runs (forParts width step left number s) c
      (((Bytes.piecesAfter width left block []).zipIdx number).foldl (fun s t => next t.2 t.1 s) s)
      (c.advance (left * width)) := by
  induction left generalizing c number s block with
  | zero =>
      rw [Nat.zero_mul, Cursor.advance_zero]
      exact runs_pure s c
  | succ left ih =>
      rw [Nat.succ_mul] at hleft ⊢
      have hwidth : width ≤ block.length := by omega
      have hremaining : width ≤ c.remaining := by
        rw [← Cursor.length_unread, hunread, List.length_append]
        omega
      have hpart : c.unread.take width = block.take width := by
        rw [hunread, List.take_append_of_le_length hwidth]
      have hbehind : (c.advance width).unread = block.drop width ++ rest := by
        rw [Cursor.unread_advance, hunread, List.drop_append_of_le_length hwidth]
      have hread := (follows_exactly width c hc).runs (if_neg (Nat.not_lt.mpr hremaining))
      rw [hpart] at hread
      obtain ⟨hnext, hkept⟩ :=
        hstep number (block.take width) s (c.advance width) (by omega) hs
      have hrest := @ih (c.advance width) (number + 1) _ _ (by omega) hkept hc hbehind
        (by rw [List.length_drop]; omega)
      rw [Cursor.advance_advance, Nat.add_comm width] at hrest
      rw [Bytes.piecesAfter, Bytes.piecesAfter_eq, List.reverse_singleton, List.singleton_append,
        List.zipIdx_cons, List.foldl_cons]
      exact (runs_observing hread).bind (hnext.bind hrest)

theorem runs_pieces (width : Nat) {s : σ} {block rest : Bytes}
    (hstep : ∀ n part s c, n < block.length / width → P n s →
      Runs (step n part s) c (next n part s) c ∧ P (n + 1) (next n part s))
    (hs : P 0 s) (hc : c.Addressable) (hunread : c.unread = block ++ rest) :
    Runs (forParts width step (block.length / width) 0 s) c
      (((Bytes.pieces width block).zipIdx 0).foldl (fun s t => next t.2 t.1 s) s)
      (c.advance (block.length / width * width)) :=
  runs_forParts hstep (Nat.le_of_eq (Nat.zero_add _)) hs hc hunread (Nat.div_mul_le_self _ _)

/-! ### What the passes find -/

/-- The numbers of the identifiers that satisfy a test. -/
def numbersOf (test : Bytes → Bool) (number : Nat) (ids : List Bytes) : List Nat :=
  ((ids.zipIdx number).filter fun t => test t.1).map Prod.snd

theorem numbersOf_cons (test : Bytes → Bool) (number : Nat) (id : Bytes) (ids : List Bytes) :
    numbersOf test number (id :: ids) =
      (if test id then [number] else []) ++ numbersOf test (number + 1) ids := by
  unfold numbersOf
  rw [List.zipIdx_cons, List.filter_cons]
  split_ifs <;> rfl

theorem le_of_mem_numbersOf {test : Bytes → Bool} {number n : Nat} {ids : List Bytes}
    (h : n ∈ numbersOf test number ids) : number ≤ n := by
  obtain ⟨t, ht, rfl⟩ := List.mem_map.mp h
  exact List.le_snd_of_mem_zipIdx (List.mem_filter.mp ht).1

theorem length_numbersOf (test : Bytes → Bool) (number : Nat) (ids : List Bytes) :
    (numbersOf test number ids).length = (ids.filter test).length := by
  induction ids generalizing number with
  | nil => rfl
  | cons id ids ih =>
      rw [numbersOf_cons, List.length_append, ih, List.filter_cons]
      split_ifs
      · exact Nat.add_comm _ _
      · exact Nat.zero_add _

/-- Whether an identifier is not among the capabilities. -/
def missed (cat : Catalogue) (id : Bytes) : Bool := (cat.features? id).isNone

/-- Whether an identifier is in neither table. -/
def neither (cat : Catalogue) (id : Bytes) : Bool := missed cat id && (cat.icon? id).isNone

theorem foldl_first (cat : Catalogue) (number : Nat) (ids : List Bytes) (s : Pass) :
    (ids.zipIdx number).foldl (fun s t => Pass.first cat t.2 t.1 s) s =
      { s with
        features := (ids.filterMap cat.features?).foldl Features.union s.features
        misses := s.misses ++ numbersOf (missed cat) number ids } := by
  induction ids generalizing number s with
  | nil => simp [numbersOf]
  | cons id ids ih =>
      rw [List.zipIdx_cons, List.foldl_cons, ih, numbersOf_cons, List.filterMap_cons]
      unfold Pass.first missed
      cases cat.features? id with
      | some f => simp
      | none => simp

/-- The second pass takes the numbers of icons out, and reports the others that are in. -/
theorem foldl_second (cat : Catalogue) (number : Nat) (ids : List Bytes) {before : List Nat}
    {s : Pass} (hbefore : ∀ n ∈ before, n < number)
    (hmisses : s.misses = before ++ numbersOf (missed cat) number ids) :
    (ids.zipIdx number).foldl (fun s t => Pass.second cat t.2 t.1 s) s =
      { s with
        icon := s.icon.or (ids.findSome? cat.icon?)
        misses := before ++ numbersOf (neither cat) number ids
        unmatched := s.unmatched ++ ids.filter (neither cat) } := by
  induction ids generalizing number s before with
  | nil =>
      rw [show before ++ numbersOf (neither cat) number [] = s.misses from hmisses.symm,
        List.zipIdx_nil, List.foldl_nil, List.findSome?_nil, Option.or_none, List.filter_nil,
        List.append_nil]
  | cons id ids ih =>
      rw [numbersOf_cons] at hmisses
      have hbehind : ∀ n ∈ numbersOf (missed cat) (number + 1) ids, n ≠ number :=
        fun n hn => Nat.ne_of_gt (le_of_mem_numbersOf hn)
      have hbefore' : ∀ n ∈ before, n < number + 1 :=
        fun n hn => Nat.lt_succ_of_lt (hbefore n hn)
      rw [List.zipIdx_cons, List.foldl_cons, List.findSome?_cons, numbersOf_cons, List.filter_cons]
      cases hicon : cat.icon? id with
      | some icon =>
          -- Its number was the first behind `before`, if it was there at all.
          have hfound : Pass.second cat number id s =
              { s with
                icon := s.icon.or (some icon)
                misses := before ++ numbersOf (missed cat) (number + 1) ids } := by
            have hfilter : s.misses.filter (· ≠ number) =
                before ++ numbersOf (missed cat) (number + 1) ids := by
              rw [hmisses, List.filter_append, List.filter_append,
                List.filter_eq_self.mpr fun n hn => decide_eq_true (Nat.ne_of_lt (hbefore n hn)),
                List.filter_eq_self.mpr fun n hn => decide_eq_true (hbehind n hn)]
              split_ifs <;> simp
            unfold Pass.second
            rw [hicon, ← hfilter]
            cases s.icon <;> rfl
          have hneither : neither cat id = false := by simp [neither, hicon]
          rw [hfound, ih _ hbefore' rfl, hneither]
          simp
      | none =>
          have hneither : neither cat id = missed cat id := by simp [neither, hicon]
          rw [hneither]
          have hmem : number ∈ s.misses ↔ missed cat id = true := by
            have hnot : number ∉ before := fun h => Nat.lt_irrefl number (hbefore number h)
            have hnot' : number ∉ numbersOf (missed cat) (number + 1) ids :=
              fun h => hbehind number h rfl
            rw [hmisses]
            simp [hnot, hnot']
          cases hmissed : missed cat id with
          | true =>
              have hreported : Pass.second cat number id s =
                  { s with unmatched := s.unmatched ++ [id] } := by
                unfold Pass.second
                rw [hicon]
                exact if_pos (hmem.mpr hmissed)
              rw [hmissed, if_pos rfl, ← List.append_assoc] at hmisses
              have hwith : ∀ n ∈ before ++ [number], n < number + 1 := by
                intro n hn
                rcases List.mem_append.mp hn with h | h
                · exact hbefore' n h
                · exact Nat.lt_succ_of_le (Nat.le_of_eq (List.mem_singleton.mp h))
              have hrest :=
                ih _ (s := { s with unmatched := s.unmatched ++ [id] }) hwith hmisses
              rw [hreported, hrest]
              simp
          | false =>
              have hother : Pass.second cat number id s = s := by
                unfold Pass.second
                rw [hicon]
                exact if_neg (by rw [hmem, hmissed]; exact Bool.false_ne_true)
              rw [hmissed] at hmisses
              rw [hother, ih _ hbefore' hmisses]
              simp

theorem foldl_passes (cat : Catalogue) (ids : List Bytes) :
    (ids.zipIdx 0).foldl (fun s t => Pass.second cat t.2 t.1 s)
        ((ids.zipIdx 0).foldl (fun s t => Pass.first cat t.2 t.1 s) {}) =
      { features := .unions (ids.filterMap cat.features?)
        icon := ids.findSome? cat.icon?
        misses := numbersOf (neither cat) 0 ids
        unmatched := ids.filter (neither cat) } := by
  rw [foldl_first, foldl_second cat 0 ids (fun n hn => (List.not_mem_nil hn).elim) rfl]
  rfl

theorem scan_eq (cat : Catalogue) (block : Bytes) :
    cat.scan block =
      ⟨.unions ((Bytes.pieces Identifier.width block).filterMap cat.features?),
        (Bytes.pieces Identifier.width block).findSome? cat.icon?,
        (Bytes.pieces Identifier.width block).filter (neither cat)⟩ := by
  unfold Catalogue.scan
  dsimp only
  rw [List.filter_filter, List.filter_congr fun id _ => Bool.and_comm _ _]
  rfl

/-! ### Blocks -/

variable (cat : Catalogue) (length : Nat)

theorem runs_bounds {α : Type} {f : Nat → Nat → Checked α} {a : α} {c' : Cursor}
    (hc : c.Addressable)
    (h : Runs (f (c.position + min length c.remaining) (min length c.remaining)) c a c') :
    Runs (do
      let left ← remaining
      let stop ← add c.position (min length left)
      let room ← sub stop c.position
      f stop room) c a c' := by
  refine (runs_remaining c).bind ?_
  refine (runs_add (position_add_lt hc (Nat.min_le_right _ _)) c).bind ?_
  refine (runs_sub (Nat.le_add_right _ _) c).bind ?_
  rwa [Nat.add_sub_cancel_left]

theorem seek_position (n : Nat) (c : Cursor) : (c.advance n).seek c.position = c := by
  unfold Cursor.advance Cursor.seek
  simp only [Nat.min_eq_left c.position_le]

theorem exists_block (c : Cursor) :
    ∃ block rest, c.unread = block ++ rest ∧ c.unread.take length = block ∧
      block.length = min length c.remaining :=
  ⟨c.unread.take length, c.unread.drop length, (List.take_append_drop _ _).symm, rfl,
    by rw [List.length_take, Cursor.length_unread]⟩

theorem seek_end {block : Bytes} (h : block.length = min length c.remaining) (n : Nat) :
    (c.advance n).seek (c.position + block.length) = c.advance length := by
  rw [h]
  exact advance_min c length

theorem follows_scan :
    Follows (scan cat length) do
      let s ← cat.readBlock length
      return (s, s.unmatched.length) := by
  intro c hc
  obtain ⟨block, rest, hunread, hblock, hlength⟩ := exists_block length c
  have hread : (do
      let s ← cat.readBlock length
      return (s, s.unmatched.length)) c =
        .ok (cat.scan block, (cat.scan block).unmatched.length) (c.advance length) := by
    rw [← hblock]
    rfl
  refine .of_runs hread ?_ rfl
  refine (runs_get c).bind (runs_bounds length hc ?_)
  rw [← hlength, show (Frame.ofCursor c).position = c.position from rfl]
  have hfirst := runs_pieces (P := fun _ _ => True) Identifier.width (s := {})
    (fun n id s c _ _ => ⟨runs_pure (Pass.first cat n id s) c, trivial⟩) trivial hc hunread
  have hsecond := fun s => runs_pieces (P := fun _ _ => True) Identifier.width (s := s)
    (fun n id s c _ _ => ⟨runs_pure (Pass.second cat n id s) c, trivial⟩) trivial hc hunread
  refine hfirst.bind ((runs_seek _ _).bind ?_)
  rw [seek_position]
  refine (hsecond _).bind ((runs_seek _ _).bind ?_)
  rw [seek_end length hlength, foldl_passes, length_numbersOf, scan_eq]
  exact runs_pure _ _

/-! ### Short blocks -/

/-- What a short identifier leaves. -/
def withShort (id : Bytes) (s : Scan × Nat) : Scan × Nat :=
  match cat.shortFeatures? id with
  | some f => ({ s.1 with features := s.1.features.union f }, s.2)
  | none => ({ s.1 with unmatched := s.1.unmatched ++ [id] }, s.2 + 1)

theorem runs_short {n : Nat} (id : Bytes) {s : Scan × Nat} (hn : n + 1 < words) (hs : s.2 ≤ n)
    (c : Cursor) : Runs (short cat id s) c (withShort cat id s) c ∧ (withShort cat id s).2 ≤ n + 1 := by
  unfold short withShort
  cases cat.shortFeatures? id with
  | some f => exact ⟨runs_pure _ c, Nat.le_succ_of_le hs⟩
  | none => exact ⟨(runs_add (by omega) c).bind (runs_pure _ c), Nat.succ_le_succ hs⟩

theorem foldl_withShort (number : Nat) (ids : List Bytes) (s : Scan × Nat) :
    (ids.zipIdx number).foldl (fun s t => withShort cat t.1 s) s =
      ({ s.1 with
          features := (ids.filterMap cat.shortFeatures?).foldl Features.union s.1.features
          unmatched := s.1.unmatched ++ ids.filter fun id => (cat.shortFeatures? id).isNone },
        s.2 + (ids.filter fun id => (cat.shortFeatures? id).isNone).length) := by
  induction ids generalizing number s with
  | nil => simp
  | cons id ids ih =>
      rw [List.zipIdx_cons, List.foldl_cons, ih, List.filterMap_cons, List.filter_cons]
      unfold withShort
      cases cat.shortFeatures? id with
      | some f => simp
      | none => simp [Nat.add_assoc, Nat.add_comm]

/-- A short block has no more identifiers than octets, so they can be counted. -/
theorem follows_scanShort :
    Follows (scanShort cat length) do
      let s ← cat.readShortBlock length
      return (s, s.unmatched.length) := by
  intro c hc
  obtain ⟨block, rest, hunread, hblock, hlength⟩ := exists_block length c
  have hread : (do
      let s ← cat.readShortBlock length
      return (s, s.unmatched.length)) c =
        .ok (cat.scanShort block, (cat.scanShort block).unmatched.length) (c.advance length) := by
    rw [← hblock]
    rfl
  refine .of_runs hread ?_ rfl
  refine (runs_get c).bind (runs_bounds length hc ?_)
  rw [← hlength]
  have hcount : block.length / Identifier.shortWidth < words := by
    have hword := position_add_lt hc (Nat.min_le_right length c.remaining)
    have hdiv := Nat.div_le_self block.length Identifier.shortWidth
    omega
  have hids := runs_pieces (P := fun n s => s.2 ≤ n) Identifier.shortWidth
    (s := (⟨.none, none, []⟩, 0))
    (fun _ id _ c hn hs => runs_short cat id (Nat.lt_of_le_of_lt hn hcount) hs c) (Nat.le_refl 0) hc
    hunread
  refine hids.bind ((runs_seek _ _).bind ?_)
  rw [seek_end length hlength, foldl_withShort, List.nil_append, Nat.zero_add]
  exact runs_pure _ _

end Checked
end Whereabouts
