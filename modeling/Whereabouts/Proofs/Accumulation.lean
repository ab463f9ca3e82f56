import Mathlib.Data.List.Basic
import Whereabouts.Proofs.Features

/-! # What a run of steps leaves in a field

A record is filled by entries that come one after another.  What one entry does to a field follows
one of three rules: what it says replaces what was there, it is kept only if nothing was there, or it
is added to what was there.  Each rule for one step gives the field after a run: the last that says
something (`field_foldl_latest`), the first (`field_foldl_first`), or all together
(`field_foldl_union`, `field_foldl_any`). -/

namespace Whereabouts

variable {α β γ σ : Type}

/-! ### The last that says something -/

/-- What the last element of a list says that says anything. -/
def latest? (say : α → Option β) (l : List α) : Option β := l.reverse.findSome? say

section latest

variable (say : α → Option β) (l : List α)

theorem latest?_append (m : List α) : latest? say (l ++ m) = (latest? say m).or (latest? say l) := by
  unfold latest?
  rw [List.reverse_append, List.findSome?_append]

theorem latest?_concat (a : α) : latest? say (l ++ [a]) = (say a).or (latest? say l) := by
  rw [latest?_append]
  unfold latest?
  rw [List.reverse_singleton, List.findSome?_cons]
  cases say a <;> rfl

theorem latest?_cons (a : α) : latest? say (a :: l) = (latest? say l).or (say a) := by
  have hlast := latest?_concat say [] a
  rw [List.nil_append] at hlast
  rw [← List.singleton_append, latest?_append, hlast]
  exact congrArg _ Option.or_none

theorem latest?_map (f : β → γ) : latest? (fun a => (say a).map f) l = (latest? say l).map f := by
  induction l with
  | nil => rfl
  | cons a l ih => rw [latest?_cons, latest?_cons, ih, Option.map_or]

theorem exists_of_latest? {b : β} (h : latest? say l = some b) : ∃ a ∈ l, say a = some b := by
  obtain ⟨a, ha, hsay⟩ := List.exists_of_findSome?_eq_some h
  exact ⟨a, List.mem_reverse.mp ha, hsay⟩

theorem latest?_filter {keep : α → Bool} (h : ∀ a, keep a = false → say a = none) :
    latest? say (l.filter keep) = latest? say l := by
  induction l with
  | nil => rfl
  | cons a l ih =>
      rw [List.filter_cons, latest?_cons]
      split_ifs with hkeep
      · rw [latest?_cons, ih]
      · rw [ih, h a (Bool.not_eq_true _ ▸ hkeep), Option.or_none]

end latest

/-! ### One field of a state -/

section field

variable {step : σ → α → σ} (s : σ) {l : List α}

/-- A field that each step may replace holds what the last step put there. -/
theorem field_foldl_latest (field : σ → Option β) {say : α → Option β}
    (h : ∀ a ∈ l, ∀ s, field (step s a) = (say a).or (field s)) :
    field (l.foldl step s) = (latest? say l).or (field s) := by
  induction l generalizing s with
  | nil => rfl
  | cons a l ih =>
      obtain ⟨hfirst, hrest⟩ := List.forall_mem_cons.mp h
      rw [List.foldl_cons, ih _ hrest, hfirst, latest?_cons, Option.or_assoc]

/-- A field that a step fills only if it is empty holds what the first step put there. -/
theorem field_foldl_first (field : σ → Option β) {say : α → Option β}
    (h : ∀ s a, field (step s a) = (field s).or (say a)) :
    field (l.foldl step s) = (field s).or (l.findSome? say) := by
  induction l generalizing s with
  | nil => exact Option.or_none.symm
  | cons a l ih =>
      rw [List.foldl_cons, ih, h, Option.or_assoc, List.findSome?_cons]
      cases say a <;> rfl

/-- A set that each step adds to is the union of all. -/
theorem field_foldl_union (field : σ → Features) {say : α → Features}
    (h : ∀ s a, field (step s a) = (field s).union (say a)) :
    field (l.foldl step s) = (field s).union (.unions (l.map say)) := by
  induction l generalizing s with
  | nil => exact Features.ext_has fun i => by simp [Features.unions]
  | cons a l ih => rw [List.foldl_cons, ih, h, List.map_cons, Features.unions_cons,
      Features.union_assoc]

theorem field_foldl_same (field : σ → β) (h : ∀ a ∈ l, ∀ s, field (step s a) = field s) :
    field (l.foldl step s) = field s := by
  induction l generalizing s with
  | nil => rfl
  | cons a l ih =>
      obtain ⟨hfirst, hrest⟩ := List.forall_mem_cons.mp h
      rw [List.foldl_cons, ih _ hrest, hfirst]

/-- A mark that steps set and none takes back. -/
theorem field_foldl_any (field : σ → Bool) {say : α → Bool}
    (h : ∀ s a, field (step s a) = (field s || say a)) :
    field (l.foldl step s) = (field s || l.any say) := by
  induction l generalizing s with
  | nil => exact (Bool.or_false _).symm
  | cons a l ih => rw [List.foldl_cons, ih, h, List.any_cons, Bool.or_assoc]

end field

end Whereabouts
