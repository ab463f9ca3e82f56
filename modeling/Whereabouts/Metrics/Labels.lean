/-! # Labels

A sample is told apart by labels: names with values, of which the order does not count.  They
are kept sorted, by name and then by value, so that two lists are the same labels exactly when
they hold the same pairs equally often. -/

namespace Whereabouts

namespace Labels

/-- Whether a pair comes no later than another: by name, then by value. -/
def pairLe (a b : String × String) : Bool := a.1 < b.1 || (a.1 == b.1 && a.2 ≤ b.2)

theorem pairLe_iff (a b : String × String) :
    pairLe a b = true ↔ a.1 < b.1 ∨ (a.1 = b.1 ∧ a.2 ≤ b.2) := by
  simp [pairLe]

theorem pairLe_trans (a b c : String × String) (h : pairLe a b = true)
    (h' : pairLe b c = true) : pairLe a c = true := by
  rw [pairLe_iff] at *
  rcases h with h | ⟨h, k⟩ <;> rcases h' with h' | ⟨h', k'⟩
  · exact .inl (String.lt_trans h h')
  · exact .inl (h' ▸ h)
  · exact .inl (h ▸ h')
  · exact .inr ⟨h.trans h', String.le_trans k k'⟩

theorem pairLe_total (a b : String × String) : (pairLe a b || pairLe b a) = true := by
  rw [Bool.or_eq_true, pairLe_iff, pairLe_iff]
  by_cases h : a.1 < b.1
  · exact .inl (.inl h)
  · by_cases h' : b.1 < a.1
    · exact .inr (.inl h')
    · have e : a.1 = b.1 := String.le_antisymm h' h
      rcases String.le_total a.2 b.2 with k | k
      · exact .inl (.inr ⟨e, k⟩)
      · exact .inr (.inr ⟨e.symm, k⟩)

theorem pairLe_antisymm {a b : String × String} (h : pairLe a b = true)
    (h' : pairLe b a = true) : a = b := by
  rw [pairLe_iff] at *
  rcases h with h | ⟨e, k⟩ <;> rcases h' with h' | ⟨e', k'⟩
  · exact absurd (String.lt_trans h h') (String.lt_irrefl _)
  · exact absurd (e' ▸ h) (String.lt_irrefl _)
  · exact absurd (e ▸ h') (String.lt_irrefl _)
  · exact Prod.ext e (String.le_antisymm k k')

end Labels

/-- Pairs of a name and a value, in order. -/
structure Labels where
  pairs : List (String × String)
  sorted : pairs.Pairwise fun a b => Labels.pairLe a b = true
deriving DecidableEq

namespace Labels

def ofList (pairs : List (String × String)) : Labels :=
  ⟨pairs.mergeSort pairLe, List.pairwise_mergeSort pairLe_trans pairLe_total pairs⟩

/-- A character of a value inside its quotes. -/
def escapeChar (c : Char) : List Char :=
  if c = '\\' then ['\\', '\\']
  else if c = '"' then ['\\', '"']
  else if c = '\n' then ['\\', 'n']
  else [c]

/-- A value inside its quotes. -/
def escape (value : String) : String := String.ofList (value.toList.flatMap escapeChar)

def renderPair (pair : String × String) : String :=
  pair.1 ++ "=\"" ++ escape pair.2 ++ "\""

/-- The text of the labels, without the braces around it. -/
def render (labels : Labels) : String := ",".intercalate (labels.pairs.map renderPair)

/-- Lists with the same pairs are the same labels. -/
theorem ofList_eq_ofList_iff (a b : List (String × String)) :
    ofList a = ofList b ↔ a.Perm b := by
  constructor
  · intro h
    have e : a.mergeSort pairLe = b.mergeSort pairLe := congrArg Labels.pairs h
    exact (List.mergeSort_perm a pairLe).symm.trans (e ▸ List.mergeSort_perm b pairLe)
  · intro h
    have e : a.mergeSort pairLe = b.mergeSort pairLe :=
      ((List.mergeSort_perm a pairLe).trans
        (h.trans (List.mergeSort_perm b pairLe).symm)).eq_of_pairwise
        (fun _ _ _ _ => pairLe_antisymm)
        (List.pairwise_mergeSort pairLe_trans pairLe_total a)
        (List.pairwise_mergeSort pairLe_trans pairLe_total b)
    simp only [ofList, e]

end Labels
end Whereabouts
