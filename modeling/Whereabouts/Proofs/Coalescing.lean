import Whereabouts.Proofs.RosterHistory
import Whereabouts.Proofs.SessionRun

/-! # Updates that are put together

Merging is associative, and merging an update again changes nothing (`Record.merge_assoc`,
`Record.merge_merge_self`).  This holds for each field that an update overwrites, and for the away
text as well, although any block of extras replaces it: the block that was last counts, however the
blocks are put together.  A record that begins is an update of the blank record.

To a roster each key is a cell of its own (`Roster.atKey?_foldl_perform`), so of two updates for one
key the first may wait for the second, or the second be sent ahead, past whatever is done to other
keys: nothing is known otherwise (`Roster.run_coalesced`). -/

namespace Whereabouts

/-! ### Merging extras -/

namespace Extras

variable (a b c : Extras)

theorem merge_assoc : (a.merge b).merge c = a.merge (b.merge c) := by
  unfold merge
  simp only [Option.or_assoc]

theorem merge_self : a.merge a = a := by
  unfold merge
  simp only [Option.or_self]

theorem empty_merge : ({} : Extras).merge a = a := by
  unfold merge
  simp only [Option.or_none]

end Extras

namespace Record

theorem mergeExtras_assoc (a b c : Option Extras) :
    mergeExtras (mergeExtras a b) c = mergeExtras a (mergeExtras b c) := by
  cases c with
  | none => rfl
  | some c =>
      cases b with
      | none => exact congrArg (fun x => some ((a.getD {}).merge x)) (Extras.empty_merge c).symm
      | some b => exact congrArg some (Extras.merge_assoc (a.getD {}) b c)

theorem mergeExtras_self (a : Option Extras) : mergeExtras a a = a := by
  cases a with
  | none => rfl
  | some a => exact congrArg some (Extras.merge_self a)

theorem mergeExtras_none (a : Option Extras) : mergeExtras none a = a := by
  cases a with
  | none => rfl
  | some a => exact congrArg some (Extras.empty_merge a)

/-! ### Merging records -/

variable (a b c : Record)

/-- The record of nobody, which says nothing. -/
def blank : Record where
  handle := ""

theorem merge_assoc : (a.merge b).merge c = a.merge (b.merge c) := by
  unfold merge
  simp only [Option.or_assoc, mergeExtras_assoc]

theorem merge_self : a.merge a = a := by
  unfold merge
  simp only [Option.or_self, mergeExtras_self]

theorem merge_merge_self : (a.merge b).merge b = a.merge b := by
  rw [merge_assoc, merge_self]

theorem blank_merge : blank.merge a = a := by
  unfold merge blank
  simp only [Option.or_none, mergeExtras_none]

end Record

/-! ### One cell a key -/

namespace Roster

/-- The key that an operation is for. -/
def Op.key : Op → String
  | merge update => update.key
  | erase handle => Handle.key handle

/-- What is known of the key of an operation after it. -/
def Op.result (known : Option Record) : Op → Option Record
  | merge update => some ((known.getD .blank).merge update)
  | erase _ => none

/-- What is known of a key after an operation. -/
def Op.resultAt (key : String) (known : Option Record) (op : Op) : Option Record :=
  if op.key = key then op.result known else known

variable {key : String} {ops : List Op}

theorem atKey?_perform (r : Roster) (key : String) (op : Op) :
    (r.perform op).atKey? key = op.resultAt key (r.atKey? key) := by
  unfold perform Op.resultAt
  cases op with
  | merge update =>
      show (r.merge update).1.atKey? key = if update.key = key then _ else _
      rw [atKey?_merge]
      refine if_congr Iff.rfl ?_ rfl
      cases r.atKey? key with
      | none => exact congrArg some (Record.blank_merge update).symm
      | some known => rfl
  | erase handle => exact atKey?_erase r handle key

/-- To a roster each key is a cell of its own. -/
theorem atKey?_foldl_perform (r : Roster) (key : String) (ops : List Op) :
    (ops.foldl perform r).atKey? key = ops.foldl (Op.resultAt key) (r.atKey? key) := by
  induction ops generalizing r with
  | nil => rfl
  | cons op ops ih => rw [List.foldl_cons, List.foldl_cons, ih, atKey?_perform]

section op

variable {op : Op}

theorem resultAt_of_eq (h : op.key = key) (known : Option Record) :
    op.resultAt key known = op.result known := if_pos h

theorem resultAt_of_ne (h : op.key ≠ key) (known : Option Record) :
    op.resultAt key known = known := if_neg h

end op

theorem foldl_resultAt_of_ne (h : ∀ op ∈ ops, op.key ≠ key) (known : Option Record) :
    ops.foldl (Op.resultAt key) known = known := by
  induction ops with
  | nil => rfl
  | cons op ops ih =>
      obtain ⟨hop, hrest⟩ := List.forall_mem_cons.mp h
      rw [List.foldl_cons, resultAt_of_ne hop, ih hrest]

/-- An operation may wait for operations for other keys. -/
theorem foldl_resultAt_swap {op : Op} (h : ∀ other ∈ ops, other.key ≠ op.key) (key : String)
    (known : Option Record) :
    ops.foldl (Op.resultAt key) (op.resultAt key known) =
      op.resultAt key (ops.foldl (Op.resultAt key) known) := by
  by_cases hkey : op.key = key
  · obtain rfl := hkey
    rw [foldl_resultAt_of_ne h, foldl_resultAt_of_ne h]
  · rw [resultAt_of_ne hkey, resultAt_of_ne hkey]

/-! ### Putting updates together -/

variable {u v : Record}

theorem resultAt_merge_merge (same : u.key = v.key) (key : String) (known : Option Record) :
    (Op.merge v).resultAt key ((Op.merge u).resultAt key known) =
      (Op.merge (u.merge v)).resultAt key known := by
  by_cases hkey : (Op.merge v).key = key
  · have hu : (Op.merge u).key = key := same.trans hkey
    have hmerged : (Op.merge (u.merge v)).key = key := hkey
    rw [resultAt_of_eq hkey, resultAt_of_eq hu, resultAt_of_eq hmerged]
    exact congrArg some (Record.merge_assoc _ u v)
  · have hu : (Op.merge u).key ≠ key := fun h => hkey (same.symm.trans h)
    have hmerged : (Op.merge (u.merge v)).key ≠ key := hkey
    rw [resultAt_of_ne hkey, resultAt_of_ne hu, resultAt_of_ne hmerged]

/-- The first of them may wait for the second, past operations for other keys. -/
theorem resultAt_merge_foldl {between : List Op} (same : u.key = v.key)
    (others : ∀ op ∈ between, op.key ≠ v.key) (key : String) (known : Option Record) :
    (Op.merge v).resultAt key
        (between.foldl (Op.resultAt key) ((Op.merge u).resultAt key known)) =
      (Op.merge (u.merge v)).resultAt key (between.foldl (Op.resultAt key) known) := by
  have hu : ∀ op ∈ between, op.key ≠ (Op.merge u).key :=
    fun op hop h => others op hop (h.trans same)
  rw [foldl_resultAt_swap hu, resultAt_merge_merge same]

/-- Whether operations become others when two updates for one key are put together, past operations
for other keys, any number of times.  What is put together may stand in the place of either. -/
inductive Coalesces : List Op → List Op → Prop
  | refl (ops : List Op) : Coalesces ops ops
  | late {u v : Record} (before between after : List Op) (same : u.key = v.key)
      (others : ∀ op ∈ between, op.key ≠ v.key) :
      Coalesces (before ++ .merge u :: (between ++ .merge v :: after))
        (before ++ (between ++ .merge (u.merge v) :: after))
  | early {u v : Record} (before between after : List Op) (same : u.key = v.key)
      (others : ∀ op ∈ between, op.key ≠ v.key) :
      Coalesces (before ++ .merge u :: (between ++ .merge v :: after))
        (before ++ .merge (u.merge v) :: (between ++ after))
  | trans {ops ops' ops'' : List Op} (first : Coalesces ops ops') (second : Coalesces ops' ops'') :
      Coalesces ops ops''

theorem coalesces_twice (before : List Op) {between : List Op} (after : List Op)
    (others : ∀ op ∈ between, op.key ≠ u.key) :
    Coalesces (before ++ .merge u :: (between ++ .merge u :: after))
      (before ++ .merge u :: (between ++ after)) := by
  have hearly := Coalesces.early before between after rfl others
  rwa [Record.merge_self] at hearly

theorem Coalesces.foldl_resultAt {ops' : List Op} (h : Coalesces ops ops') (key : String)
    (known : Option Record) :
    ops.foldl (Op.resultAt key) known = ops'.foldl (Op.resultAt key) known := by
  induction h with
  | refl _ => rfl
  | @late u v before between after same others =>
      simp only [List.foldl_append, List.foldl_cons]
      rw [resultAt_merge_foldl same others]
  | @early u v before between after same others =>
      have hmerged : ∀ op ∈ between, op.key ≠ (Op.merge (u.merge v)).key := others
      simp only [List.foldl_append, List.foldl_cons]
      rw [resultAt_merge_foldl same others, ← foldl_resultAt_swap hmerged]
  | trans _ _ first second => exact first.trans second

theorem Coalesces.atKey? {ops' : List Op} (h : Coalesces ops ops') (r : Roster) (key : String) :
    (ops.foldl perform r).atKey? key = (ops'.foldl perform r).atKey? key := by
  rw [atKey?_foldl_perform, atKey?_foldl_perform, h.foldl_resultAt]

/-- A record that begins is an update of the blank record. -/
theorem record_merge (r : Roster) (update : Record) :
    (r.merge update).2.1 = ((r.find? update.handle).getD .blank).merge update := by
  show _ = ((r.atKey? update.key).getD .blank).merge update
  unfold merge
  split
  · rename_i hnone
    show update = _
    rw [hnone]
    exact (Record.blank_merge update).symm
  · rename_i known hknown
    show known.merge update = _
    rw [hknown]
    rfl

/-- A session that receives the same twice knows what it knew. -/
theorem find?_receive_receive (s : Session) (m m' : Metrics) (data : Bytes) (handle : String) :
    ((s.receive m data).session.receive m' data).session.find? handle =
      (s.receive m data).session.find? handle := by
  have hroster : ∀ (s : Session) (m : Metrics), (s.receive m data).session.roster =
      (Session.Call.op? (.receive data)).toList.foldl perform s.roster :=
    fun s m => Session.roster_call s m (.receive data)
  unfold Session.find? find?
  rw [hroster, hroster]
  unfold Session.Call.op?
  dsimp only
  cases Record.decode Session.catalogue data with
  | error fault => rfl
  | ok reading => exact (coalesces_twice [] [] (List.forall_mem_nil _)).atKey? s.roster _

/-- **Updates for one handle may be put together before they are merged, and may come twice.**
Merging is associative, repeats nothing, and begins with the blank record; what is known of each
handle is as if every update had come once and alone. -/
theorem run_coalesced :
    (∀ a b c : Record, (a.merge b).merge c = a.merge (b.merge c)) ∧
    (∀ a b : Record, (a.merge b).merge b = a.merge b) ∧
    (∀ a : Record, Record.blank.merge a = a) ∧
    (∀ (r : Roster) (u : Record),
      (r.merge u).2.1 = ((r.find? u.handle).getD .blank).merge u ∧
      (r.merge u).1.find? u.handle = some (((r.find? u.handle).getD .blank).merge u)) ∧
    (∀ ops ops' : List Op, Coalesces ops ops' →
      ∀ handle, (run ops).find? handle = (run ops').find? handle) ∧
    (∀ (before between after : List Op) (u : Record), (∀ op ∈ between, op.key ≠ u.key) →
      ∀ handle, (run (before ++ .merge u :: (between ++ .merge u :: after))).find? handle =
        (run (before ++ .merge u :: (between ++ after))).find? handle) ∧
    ∀ (s : Session) (m m' : Metrics) (data : Bytes) (handle : String),
      ((s.receive m data).session.receive m' data).session.find? handle =
        (s.receive m data).session.find? handle := by
  refine ⟨Record.merge_assoc, Record.merge_merge_self, Record.blank_merge, ?_, ?_, ?_,
    find?_receive_receive⟩
  · exact fun r u => ⟨r.record_merge u, (atKey?_perform r u.key (.merge u)).trans (if_pos rfl)⟩
  · exact fun ops ops' h handle => h.atKey? empty (Handle.key handle)
  · exact fun before between after u others handle =>
      (coalesces_twice before after others).atKey? empty (Handle.key handle)

/-- A user who is away and has a link. -/
def linked : Record where
  handle := "Ann"
  extras := some { away := some ⟨[120], none⟩, externalLink := some ⟨[108], none⟩ }

/-- The same user, by another spelling, who is back and has a mood. -/
def returned : Record where
  handle := "a NN"
  extras := some { mood := Icon.ofNat? 5 }

/-- Put together, the two updates take the away text back and keep the link; the first of them leaves
the same if it comes twice. -/
theorem run_coalesced_spellings :
    (run [.merge linked, .merge { handle := "Bob" }, .erase "bob", .merge returned]).find? "ANN" =
      some (linked.merge returned) ∧
    (run [.merge linked, .erase "bob", .merge linked]).find? "ANN" = some linked ∧
    (linked.merge returned).away? = none ∧
    (linked.merge returned).externalLink? = some ⟨[108], none⟩ := by
  obtain ⟨-, -, -, -, hcoalesced, htwice, -⟩ := run_coalesced
  have hothers : ∀ op ∈ [Op.merge { handle := "Bob" }, .erase "bob"], op.key ≠ returned.key := by
    decide +kernel
  have hsame : linked.key = returned.key := by decide +kernel
  have hother : ∀ op ∈ [Op.erase "bob"], op.key ≠ linked.key := by decide +kernel
  have hlate := hcoalesced _ _
    (.late [] [.merge { handle := "Bob" }, .erase "bob"] [] hsame hothers) "ANN"
  have hagain := htwice [] [.erase "bob"] [] linked hother "ANN"
  exact ⟨hlate.trans (by decide +kernel), hagain.trans (by decide +kernel), by decide, by decide⟩

end Roster
end Whereabouts
