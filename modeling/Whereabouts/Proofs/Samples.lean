import Mathlib.Data.List.Basic
import Whereabouts.Metrics.Registry
import Whereabouts.Proofs.Keyed

/-! # Samples after an addition

An addition touches the sample of its labels and no other (`Family.cell?_add`).  As labels are
told apart by their pairs and not by the order of these, a counter or a gauge shows the addition
exactly under the lists that are permutations of the one that was named (`Counter.get_add`,
`Gauge.get_add`). -/

namespace Whereabouts

namespace Family

variable (f : Family) (pairs : List (String × String)) (v : UInt64)

theorem get_of_cell? {cell : Labels × UInt64} (h : f.cell? (.ofList pairs) = some cell) :
    f.get pairs = cell.2 := by
  unfold get
  rw [h]

theorem cell?_push (labels : Labels) (new : f.cell? labels = none) (other : Labels) :
    (f.push labels v new).cell? other =
      if labels = other then some (labels, v) else f.cell? other :=
  @Keyed.find?_concat _ _ _ _ Prod.fst f.cells _ (labels, v) new other

theorem cell?_increase (labels other : Labels) :
    (f.increase labels v).cell? other =
      if labels = other then (f.cell? other).map fun cell => (cell.1, cell.2 + v)
      else f.cell? other :=
  @Keyed.find?_change _ _ _ _ Prod.fst f.cells _ (fun cell => (cell.1, cell.2 + v)) labels
    (fun _ h => h) other

/-- **An addition touches one sample**, which starts from zero if it is new. -/
theorem cell?_add (labels : Labels) :
    (f.add pairs v).cell? labels =
      if Labels.ofList pairs = labels then some (labels, f.get pairs + v) else f.cell? labels := by
  unfold add
  dsimp only
  split
  · rename_i hnew
    have hzero : f.get pairs = 0 := by
      unfold get
      rw [hnew]
    rw [cell?_push, hzero, UInt64.zero_add]
    split_ifs with hlabels
    · rw [hlabels]
    · rfl
  · rename_i cell hcell
    have hlabel : cell.1 = Labels.ofList pairs := Keyed.tell_of_find? hcell
    rw [cell?_increase]
    split_ifs with hlabels
    · rw [← hlabels, hcell, Option.map_some, hlabel, get_of_cell? f pairs hcell]
    · rfl

theorem get_add (other : List (String × String)) :
    (f.add pairs v).get other = if pairs.Perm other then f.get other + v else f.get other := by
  unfold get
  rw [cell?_add]
  by_cases h : Labels.ofList pairs = .ofList other
  · rw [if_pos h, if_pos ((Labels.ofList_eq_ofList_iff pairs other).mp h)]
    show f.get pairs + v = f.get other + v
    unfold get
    rw [h]
  · rw [if_neg h, if_neg fun perm => h ((Labels.ofList_eq_ofList_iff pairs other).mpr perm)]

/-! ### Lines -/

/-- What stands in front of the number in the line of a sample. -/
def seriesText (name : String) (labels : Labels) : String :=
  if labels.render.isEmpty then name else name ++ "\x7b" ++ labels.render ++ "\x7d"

theorem sampleLine_eq (shown : UInt64 → String) (name : String) (cell : Labels × UInt64) :
    sampleLine shown name cell = seriesText name cell.1 ++ " " ++ shown cell.2 := by
  unfold sampleLine seriesText
  dsimp only
  split_ifs
  · rfl
  · have hbrace : "\x7d " = "\x7d" ++ " " := rfl
    rw [hbrace]
    simp only [String.append_assoc]

end Family

namespace Counter

variable (c : Counter) (pairs other : List (String × String))

theorem get_add (v : UInt64) :
    (c.add pairs v).get other = c.get other + if pairs.Perm other then v else 0 := by
  rw [show (c.add pairs v).get other = _ from c.words.get_add pairs v other]
  split_ifs
  · rfl
  · exact (UInt64.add_zero _).symm

theorem get_add_self (v : UInt64) : (c.add pairs v).get pairs = c.get pairs + v := by
  rw [get_add, if_pos (List.Perm.refl pairs)]

theorem get_add_unless_zero (n : Nat) :
    (if n = 0 then c else c.add pairs (.ofNat n)).get pairs = c.get pairs + .ofNat n := by
  split_ifs with hzero
  · rw [hzero]
    exact (UInt64.add_zero _).symm
  · exact c.get_add_self pairs _

theorem get_inc : (c.inc pairs).get other = c.get other + if pairs.Perm other then 1 else 0 :=
  c.get_add pairs other 1

/-- Samples with one label are told apart by its value. -/
theorem get_inc_single (label a b : String) :
    (c.inc [(label, a)]).get [(label, b)] = c.get [(label, b)] + if a = b then 1 else 0 := by
  have hperm : [(label, a)].Perm [(label, b)] ↔ a = b := by
    rw [List.singleton_perm_singleton, Prod.mk.injEq, eq_self, true_and]
  rw [get_inc]
  exact congrArg _ (if_congr hperm rfl rfl)

/-- Samples with two labels are told apart by the values of both. -/
theorem get_inc_pair {label label' : String} (h : label ≠ label') (a a' b b' : String) :
    (c.inc [(label, a), (label', a')]).get [(label, b), (label', b')] =
      c.get [(label, b), (label', b')] + if a = b ∧ a' = b' then 1 else 0 := by
  have hperm : [(label, a), (label', a')].Perm [(label, b), (label', b')] ↔ a = b ∧ a' = b' := by
    constructor
    · intro perm
      have hfirst : a = b := by simpa [h] using perm.mem_iff (a := (label, a))
      have hsecond : a' = b' := by simpa [h.symm] using perm.mem_iff (a := (label', a'))
      exact ⟨hfirst, hsecond⟩
    · rintro ⟨rfl, rfl⟩
      exact .refl _
  rw [get_inc]
  exact congrArg _ (if_congr hperm rfl rfl)

end Counter

namespace Gauge

variable (g : Gauge) (pairs other : List (String × String))

theorem get_add (v : Int64) :
    (g.add pairs v).get other = g.get other + if pairs.Perm other then v else 0 := by
  unfold get
  rw [show (g.add pairs v).words.get other = _ from g.words.get_add pairs v.toUInt64 other]
  split_ifs
  · rw [UInt64.toInt64_add]
    rfl
  · exact (Int64.add_zero _).symm

theorem get_add_self (v : Int64) : (g.add pairs v).get pairs = g.get pairs + v := by
  rw [get_add, if_pos (List.Perm.refl pairs)]

end Gauge
end Whereabouts
