import Mathlib.Data.List.Nodup

/-! # Lists with one element a key

Tables, rosters and queues are lists whose elements have a key, and a look-up takes the first
element with a key.  These lemmas say what a look-up finds after one change to such a list: an
element at the end, a change to the elements of one key, or their removal.  As a key occurs once,
such a change touches one element and leaves what stands before and behind it (`exists_parting`,
`map_parted`, `filter_parted`). -/

namespace Whereabouts
namespace Keyed

variable {α β : Type} [BEq β] [LawfulBEq β] {tell : α → β} {l : List α}

theorem tell_of_find? {key : β} {a : α} (h : (l.find? fun b => tell b == key) = some a) :
    tell a = key := by
  have := List.find?_some h
  exact beq_iff_eq.mp this

/-- An element is found by its key, as no other has it. -/
theorem find?_of_mem (h : (l.map tell).Nodup) {a : α} (ha : a ∈ l) :
    (l.find? fun b => tell b == tell a) = some a := by
  obtain ⟨front, rest, rfl⟩ := List.append_of_mem ha
  rw [List.map_append, List.map_cons, List.nodup_middle, List.nodup_cons] at h
  rw [List.find?_eq_some_iff_append]
  refine ⟨beq_self_eq_true _, front, rest, rfl, fun b hb => ?_⟩
  have hne : tell b ≠ tell a := fun same =>
    h.1 (List.mem_append_left _ (same ▸ List.mem_map_of_mem hb))
  simpa using hne

/-- What is found by the key of an element says what the element says, if all with one key say the
same. -/
theorem map_find?_of_mem {γ : Type} {say : α → γ}
    (h : ∀ a ∈ l, ∀ b ∈ l, tell a = tell b → say a = say b) {a : α} (ha : a ∈ l) :
    (l.find? fun b => tell b == tell a).map say = some (say a) := by
  cases hfind : l.find? fun b => tell b == tell a with
  | none =>
      have hnone := List.find?_eq_none.mp hfind a ha
      simp at hnone
  | some b =>
      have hb := List.mem_of_find?_eq_some hfind
      rw [Option.map_some, h b hb a ha (tell_of_find? hfind)]

variable [DecidableEq β]

theorem find?_concat {a : α} (h : (l.find? fun b => tell b == tell a) = none) (key : β) :
    ((l ++ [a]).find? fun b => tell b == key) =
      if tell a = key then some a else l.find? fun b => tell b == key := by
  rw [List.find?_append]
  by_cases hkey : tell a = key
  · rw [if_pos hkey, ← hkey, h, Option.none_or]
    simp
  · rw [if_neg hkey]
    simp [hkey]

theorem find?_change {change : α → α} {k : β} (h : ∀ a, tell a = k → tell (change a) = k)
    (key : β) :
    ((l.map fun a => if tell a = k then change a else a).find? fun a => tell a == key) =
      if k = key then (l.find? fun a => tell a == key).map change
      else l.find? fun a => tell a == key := by
  have hsame : ((fun a => tell a == key) ∘ fun a => if tell a = k then change a else a) =
      fun a => tell a == key := by
    funext a
    by_cases ha : tell a = k
    · simp [ha, h a ha]
    · simp [ha]
  rw [List.find?_map, hsame]
  cases ha : l.find? fun a => tell a == key with
  | none => simp
  | some a =>
      rw [Option.map_some, tell_of_find? ha]
      by_cases hkey : k = key
      · rw [if_pos hkey.symm, if_pos hkey, Option.map_some]
      · rw [if_neg (Ne.symm hkey), if_neg hkey]

theorem find?_erase (k key : β) :
    ((l.filter fun a => tell a != k).find? fun a => tell a == key) =
      if k = key then none else l.find? fun a => tell a == key := by
  rw [List.find?_filter]
  by_cases h : k = key
  · rw [if_pos h, List.find?_eq_none]
    intro a _
    simp [h]
  · rw [if_neg h]
    congr 1
    funext a
    by_cases ha : tell a = key
    · simp [ha, Ne.symm h]
    · simp [ha]

/-! ### Tables that hold everything -/

section all

omit [LawfulBEq β] [DecidableEq β]

theorem tell_inj (h : ∀ a, (l.find? fun b => tell b == tell a) = some a) {a b : α} :
    tell a = tell b ↔ a = b := by
  constructor
  · intro same
    have hfind := h a
    rw [same, h b] at hfind
    exact (Option.some.inj hfind).symm
  · rintro rfl
    rfl

/-- Everything has a key, so what is not found has a key of its own. -/
theorem ne_tell_of_find?_eq_none (h : ∀ a, (l.find? fun b => tell b == tell a) = some a) {key : β}
    (hnone : (l.find? fun b => tell b == key) = none) (a : α) : key ≠ tell a := by
  rintro rfl
  rw [h] at hnone
  cases hnone

end all

/-! ### Parting a list at a key -/

section parting

variable {key : β} {a : α} {front back : List α}

omit [DecidableEq β] in
theorem find?_eq_none_iff : (l.find? fun b => tell b == key) = none ↔ key ∉ l.map tell := by
  rw [List.find?_eq_none, List.mem_map]
  constructor
  · rintro h ⟨b, hb, hkey⟩
    exact h b hb (beq_iff_eq.mpr hkey)
  · intro h b hb hkey
    exact h ⟨b, hb, beq_iff_eq.mp hkey⟩

omit [DecidableEq β] in
theorem isNone_find? : (l.find? fun b => tell b == key).isNone = decide (key ∉ l.map tell) := by
  rw [Bool.eq_iff_iff, Option.isNone_iff_eq_none, find?_eq_none_iff, decide_eq_true_iff]

omit [DecidableEq β] in
/-- What is found parts the list in two, and its key is in neither part. -/
theorem exists_parting (h : (l.map tell).Nodup)
    (hfind : (l.find? fun b => tell b == key) = some a) :
    ∃ front back, l = front ++ a :: back ∧ tell a = key ∧ ∀ b ∈ front ++ back, tell b ≠ key := by
  have hkey : tell a = key := tell_of_find? hfind
  obtain ⟨front, back, rfl⟩ := List.append_of_mem (List.mem_of_find?_eq_some hfind)
  rw [List.map_append, List.map_cons, List.nodup_middle, List.nodup_cons, ← List.map_append] at h
  refine ⟨front, back, rfl, hkey, fun b hb same => h.1 ?_⟩
  rw [hkey, ← same]
  exact List.mem_map_of_mem hb

omit [DecidableEq β] in
theorem filter_of_ne (h : ∀ b ∈ l, tell b ≠ key) : (l.filter fun b => tell b != key) = l := by
  rw [List.filter_eq_self]
  intro b hb
  simpa using h b hb

omit [DecidableEq β] in
theorem filter_parted (hkey : tell a = key) (h : ∀ b ∈ front ++ back, tell b ≠ key) :
    ((front ++ a :: back).filter fun b => tell b != key) = front ++ back := by
  have hparts := filter_of_ne h
  rw [List.filter_append] at hparts
  rw [List.filter_append, List.filter_cons_of_neg (by simp [hkey]), hparts]

omit [BEq β] [LawfulBEq β] in
theorem map_of_ne {change : α → α} (h : ∀ b ∈ l, tell b ≠ key) :
    (l.map fun b => if tell b = key then change b else b) = l := by
  conv_rhs => rw [← List.map_id l]
  apply List.map_congr_left
  intro b hb
  rw [if_neg (h b hb), id_eq]

omit [BEq β] [LawfulBEq β] in
theorem map_parted {change : α → α} (hkey : tell a = key)
    (h : ∀ b ∈ front ++ back, tell b ≠ key) :
    ((front ++ a :: back).map fun b => if tell b = key then change b else b) =
      front ++ change a :: back := by
  rw [List.map_append, List.map_cons, if_pos hkey,
    map_of_ne fun b hb => h b (List.mem_append_left _ hb),
    map_of_ne fun b hb => h b (List.mem_append_right _ hb)]

end parting

end Keyed
end Whereabouts
