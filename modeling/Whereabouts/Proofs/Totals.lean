import Mathlib.Algebra.BigOperators.Group.List.Basic
import Mathlib.Algebra.Order.Ring.Int
import Mathlib.Data.List.Dedup
import Mathlib.Data.List.Induction
import Mathlib.Data.List.Perm.Basic
import Whereabouts.Proofs.Samples

/-! # Totals

A sample is the sum of what was added under its labels (`Family.get_run`), and a family has a
sample for each set of labels that was named in an addition, if only to add zero
(`Family.perm_cells_run`).  Neither depends on the order of the additions or on that of the pairs
in one of them, so such runs leave the same samples, up to the order that these are kept in
(`Family.perm_cells_of_shuffled`).

That order is not one that a reader could rely on.  The exposition sorts the lines of the samples,
so families with the same samples are shown by the same text (`Family.render_of_perm`). -/

namespace Whereabouts

/-! ### Lists up to their order -/

/-- Whether two lists hold related elements, up to their order. -/
def Shuffled {α : Type} (R : α → α → Prop) (as bs : List α) : Prop :=
  ∃ mid, as.Perm mid ∧ List.Forall₂ R mid bs

namespace Shuffled

variable {α β : Type} {R : α → α → Prop} {as bs : List α}

theorem map {S : β → β → Prop} {f : α → β} (h : Shuffled R as bs)
    (hf : ∀ a b, R a b → S (f a) (f b)) : Shuffled S (as.map f) (bs.map f) := by
  obtain ⟨mid, hperm, hrelated⟩ := h
  refine ⟨mid.map f, hperm.map f, ?_⟩
  rw [List.forall₂_map_left_iff, List.forall₂_map_right_iff]
  exact hrelated.imp hf

theorem filter {p : α → Bool} (h : Shuffled R as bs) (hp : ∀ a b, R a b → p a = p b) :
    Shuffled R (as.filter p) (bs.filter p) := by
  obtain ⟨mid, hperm, hrelated⟩ := h
  refine ⟨mid.filter p, hperm.filter p, ?_⟩
  clear hperm
  induction hrelated with
  | nil => exact .nil
  | cons hab _ ih =>
      rw [List.filter_cons, List.filter_cons, hp _ _ hab]
      split_ifs
      · exact .cons hab ih
      · exact ih

theorem perm_map {f : α → β} (h : Shuffled R as bs) (hf : ∀ a b, R a b → f a = f b) :
    (as.map f).Perm (bs.map f) := by
  obtain ⟨mid, hperm, hsame⟩ := h.map hf
  rw [List.forall₂_eq_eq_eq] at hsame
  exact hsame ▸ hperm

end Shuffled

/-! ### Additions to a family -/

/-- An addition to a family: the pairs that it names and the word that it adds. -/
structure Addition where
  pairs : List (String × String)
  word : UInt64

namespace Addition

def labels (a : Addition) : Labels := .ofList a.pairs

/-- Whether two additions add the same word under the same pairs in some order. -/
def Alike (a b : Addition) : Prop := a.word = b.word ∧ a.pairs.Perm b.pairs

/-- What additions add to the sample of some pairs. -/
def total (pairs : List (String × String)) (additions : List Addition) : Nat :=
  ((additions.filter fun a => a.pairs.Perm pairs).map fun a => a.word.toNat).sum

theorem total_concat (pairs : List (String × String)) (additions : List Addition) (a : Addition) :
    total pairs (additions ++ [a]) =
      total pairs additions + if a.pairs.Perm pairs then a.word.toNat else 0 := by
  simp only [total, List.filter_append, List.map_append, List.sum_append]
  by_cases h : a.pairs.Perm pairs
  · simp [h]
  · simp [h]

/-- The sets of labels that additions touch. -/
def touched (additions : List Addition) : List Labels := (additions.map labels).dedup

variable {as bs : List Addition}

theorem total_of_shuffled (h : Shuffled Alike as bs) (pairs : List (String × String)) :
    total pairs as = total pairs bs := by
  have hpairs : ∀ a b : Addition, a.Alike b →
      decide (a.pairs.Perm pairs) = decide (b.pairs.Perm pairs) :=
    fun a b hab => decide_eq_decide.mpr ⟨hab.2.symm.trans, hab.2.trans⟩
  have hword : ∀ a b : Addition, a.Alike b → a.word.toNat = b.word.toNat :=
    fun a b hab => congrArg UInt64.toNat hab.1
  exact ((h.filter hpairs).perm_map hword).sum_eq

theorem touched_of_shuffled (h : Shuffled Alike as bs) : (touched as).Perm (touched bs) := by
  have hlabels : ∀ a b : Addition, a.Alike b → a.labels = b.labels :=
    fun a b hab => (Labels.ofList_eq_ofList_iff a.pairs b.pairs).mpr hab.2
  exact (h.perm_map hlabels).dedup

end Addition

theorem Labels.ofList_pairs (labels : Labels) : ofList labels.pairs = labels := by
  obtain ⟨pairs, sorted⟩ := labels
  simp only [ofList, List.mergeSort_of_pairwise sorted]

namespace Family

def perform (f : Family) (a : Addition) : Family := f.add a.pairs a.word

/-- The family after additions, from the family without a sample. -/
def run (additions : List Addition) : Family := additions.foldl perform empty

theorem run_concat (additions : List Addition) (a : Addition) :
    run (additions ++ [a]) = (run additions).add a.pairs a.word := by
  rw [run, List.foldl_append]
  rfl

theorem get_run (additions : List Addition) (pairs : List (String × String)) :
    (run additions).get pairs = UInt64.ofNat (Addition.total pairs additions) := by
  induction additions using List.reverseRecOn with
  | nil => rfl
  | append_singleton additions a ih =>
      rw [run_concat, get_add, ih, Addition.total_concat, UInt64.ofNat_add]
      split_ifs
      · rw [UInt64.ofNat_toNat]
      · exact (UInt64.add_zero _).symm

/-! ### Samples -/

theorem mem_labels_iff (f : Family) (labels : Labels) :
    labels ∈ f.cells.map Prod.fst ↔ f.cell? labels ≠ none := by
  rw [ne_eq, cell?, Keyed.find?_eq_none_iff, not_not]

/-- A family has a sample for each set of labels that was touched, if only to add zero. -/
theorem mem_labels_run (additions : List Addition) (labels : Labels) :
    labels ∈ (run additions).cells.map Prod.fst ↔ labels ∈ Addition.touched additions := by
  rw [Addition.touched, List.mem_dedup]
  induction additions using List.reverseRecOn with
  | nil => rfl
  | append_singleton additions a ih =>
      rw [run_concat, mem_labels_iff, cell?_add, List.map_append, List.mem_append, ← ih,
        mem_labels_iff, List.map_singleton, List.mem_singleton, Addition.labels]
      split_ifs with h
      · simp [h]
      · simp [Ne.symm h]

theorem mem_cells_iff (f : Family) (cell : Labels × UInt64) :
    cell ∈ f.cells ↔ cell.1 ∈ f.cells.map Prod.fst ∧ cell.2 = f.get cell.1.pairs := by
  have hget : ∀ other ∈ f.cells, f.get other.1.pairs = other.2 := by
    intro other hother
    refine get_of_cell? f _ ?_
    rw [Labels.ofList_pairs]
    exact Keyed.find?_of_mem f.labels_nodup hother
  constructor
  · intro h
    exact ⟨List.mem_map_of_mem h, (hget cell h).symm⟩
  · rintro ⟨hlabels, hword⟩
    obtain ⟨other, hother, hsame⟩ := List.mem_map.mp hlabels
    have hcell : other = cell := Prod.ext hsame (by rw [hword, ← hsame, hget other hother])
    exact hcell ▸ hother

/-- **The samples of a run**: one for each set of labels that was touched. -/
theorem perm_cells_run (additions : List Addition) :
    (run additions).cells.Perm
      ((Addition.touched additions).map fun labels =>
        (labels, (run additions).get labels.pairs)) := by
  have hnodup : ((Addition.touched additions).map fun labels =>
      (labels, (run additions).get labels.pairs)).Nodup :=
    (List.nodup_dedup _).map fun _ _ h => congrArg Prod.fst h
  rw [List.perm_ext_iff_of_nodup (.of_map _ (run additions).labels_nodup) hnodup]
  intro cell
  rw [mem_cells_iff, mem_labels_run, List.mem_map]
  constructor
  · rintro ⟨hlabels, hword⟩
    exact ⟨cell.1, hlabels, Prod.ext rfl hword.symm⟩
  · rintro ⟨labels, hlabels, rfl⟩
    exact ⟨hlabels, rfl⟩

theorem perm_cells_of_shuffled {as bs : List Addition} (h : Shuffled Addition.Alike as bs) :
    (run as).cells.Perm (run bs).cells := by
  have hget : ∀ pairs, (run as).get pairs = (run bs).get pairs := by
    intro pairs
    rw [get_run, get_run, Addition.total_of_shuffled h]
  have hmap := (Addition.touched_of_shuffled h).map fun labels =>
    (labels, (run as).get labels.pairs)
  refine (perm_cells_run as).trans (hmap.trans ?_)
  simp only [hget]
  exact (perm_cells_run bs).symm

/-! ### Lines -/

theorem mergeSort_of_perm {lines lines' : List String} (h : lines.Perm lines') :
    (lines.mergeSort fun a b => a ≤ b) = lines'.mergeSort fun a b => a ≤ b := by
  have htrans : ∀ a b c : String, decide (a ≤ b) = true → decide (b ≤ c) = true →
      decide (a ≤ c) = true := by
    simp only [decide_eq_true_eq]
    exact fun a b c => String.le_trans
  have htotal : ∀ a b : String, (decide (a ≤ b) || decide (b ≤ a)) = true := by
    simp only [Bool.or_eq_true, decide_eq_true_eq]
    exact String.le_total
  refine (((List.mergeSort_perm _ _).trans h).trans
    (List.mergeSort_perm _ _).symm).eq_of_pairwise ?_
    (List.pairwise_mergeSort htrans htotal _) (List.pairwise_mergeSort htrans htotal _)
  intro a b _ _ hab hba
  exact String.le_antisymm (of_decide_eq_true hab) (of_decide_eq_true hba)

variable (shown : UInt64 → String) (name type : String)

/-- **The order of the samples is not seen.** -/
theorem render_of_perm {f f' : Family} (h : f.cells.Perm f'.cells) :
    f.render shown name type = f'.render shown name type := by
  unfold render sampleLines
  rw [mergeSort_of_perm (h.map _)]

theorem perm_sampleLines_run {f : Family} {additions : List Addition}
    (h : (run additions).cells.Perm f.cells) :
    (f.sampleLines shown name).Perm
      ((Addition.touched additions).map fun labels =>
        sampleLine shown name (labels, (run additions).get labels.pairs)) := by
  have hlines := (h.symm.trans (perm_cells_run additions)).map (sampleLine shown name)
  rw [List.map_map] at hlines
  exact (List.mergeSort_perm _ _).trans hlines

end Family

/-! ### Operations on counters and gauges -/

namespace Counter

inductive Op where
  | inc (pairs : List (String × String))
  | add (pairs : List (String × String)) (v : UInt64)

def perform (c : Counter) : Op → Counter
  | .inc pairs => c.inc pairs
  | .add pairs v => c.add pairs v

/-- The counter after operations, from the counter without a sample. -/
def run (ops : List Op) : Counter := ops.foldl perform {}

namespace Op

def pairs : Op → List (String × String)
  | inc pairs | add pairs _ => pairs

def delta : Op → UInt64
  | inc _ => 1
  | add _ v => v

def addition (op : Op) : Addition := ⟨op.pairs, op.delta⟩

end Op

theorem words_perform (c : Counter) (op : Op) :
    (c.perform op).words = c.words.perform op.addition := by
  cases op <;> rfl

theorem words_run (ops : List Op) : (run ops).words = .run (ops.map Op.addition) := by
  rw [run, Family.run, List.foldl_map]
  refine (List.foldl_hom words ?_).symm
  exact fun c op => (words_perform c op).symm

/-- A counter shows the sum of what was added, as far as 64 bits go. -/
theorem toNat_get_run (ops : List Op) (pairs : List (String × String)) :
    ((run ops).get pairs).toNat =
      ((ops.filter fun op : Op => op.pairs.Perm pairs).map fun op : Op => op.delta.toNat).sum %
        2 ^ 64 := by
  rw [get, words_run, Family.get_run, UInt64.toNat_ofNat', Addition.total, List.filter_map,
    List.map_map]
  rfl

end Counter

namespace Gauge

inductive Op where
  | inc (pairs : List (String × String))
  | dec (pairs : List (String × String))
  | add (pairs : List (String × String)) (v : Int64)

def perform (g : Gauge) : Op → Gauge
  | .inc pairs => g.inc pairs
  | .dec pairs => g.dec pairs
  | .add pairs v => g.add pairs v

/-- The gauge after operations, from the gauge without a sample. -/
def run (ops : List Op) : Gauge := ops.foldl perform {}

namespace Op

def pairs : Op → List (String × String)
  | inc pairs | dec pairs | add pairs _ => pairs

def delta : Op → Int64
  | inc _ => 1
  | dec _ => -1
  | add _ v => v

def addition (op : Op) : Addition := ⟨op.pairs, op.delta.toUInt64⟩

end Op

theorem perform_eq (g : Gauge) (op : Op) : g.perform op = g.add op.pairs op.delta := by
  cases op <;> rfl

theorem words_perform (g : Gauge) (op : Op) :
    (g.perform op).words = g.words.perform op.addition := by
  rw [perform_eq]
  rfl

theorem words_run (ops : List Op) : (run ops).words = .run (ops.map Op.addition) := by
  rw [run, Family.run, List.foldl_map]
  refine (List.foldl_hom words ?_).symm
  exact fun g op => (words_perform g op).symm

theorem toInt_get_run (ops : List Op) (pairs : List (String × String)) :
    ((run ops).get pairs).toInt =
      ((ops.filter fun op : Op => op.pairs.Perm pairs).map fun op : Op =>
        op.delta.toInt).sum.bmod (2 ^ 64) := by
  induction ops using List.reverseRecOn with
  | nil => rfl
  | append_singleton ops op ih =>
      have hstep : (run (ops ++ [op])).get pairs =
          (run ops).get pairs + if op.pairs.Perm pairs then op.delta else 0 := by
        rw [← get_add, ← perform_eq, run, List.foldl_append]
        rfl
      rw [hstep, Int64.toInt_add, ih, List.filter_append, List.map_append, List.sum_append]
      by_cases h : op.pairs.Perm pairs
      · simp [h]
      · simp [h]

end Gauge

end Whereabouts
