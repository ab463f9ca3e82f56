import Mathlib.Data.List.Basic
import Whereabouts.Wire.Hex

/-! # Numbers as texts

What the texts of numbers are made of, and a reader of hexadecimal numbers, `Hex.toNat?`. -/

namespace Whereabouts

theorem isDigit_or_sign_of_mem_repr {n : Int} {c : Char} (h : c ∈ n.repr.toList) :
    c.isDigit = true ∨ c = '-' := by
  have hdigits : ∀ n : Nat, c ∈ n.repr.toList → c.isDigit = true := by
    intro n hmem
    rw [Nat.toList_repr] at hmem
    exact Nat.isDigit_of_mem_toDigits (by decide) (by decide) hmem
  rw [Int.repr_eq_if] at h
  split_ifs at h
  · exact .inl (hdigits _ h)
  · rw [String.toList_append, List.mem_append] at h
    rcases h with hminus | hmem
    · exact .inr (List.mem_singleton.mp hminus)
    · exact .inl (hdigits _ hmem)

namespace Hex

/-- The value of a digit in either case. -/
def digit? (c : Char) : Option Nat := "0123456789abcdef".toList.idxOf? c.toLower

/-- The number of a run of digits. -/
def toNat? (digits : List Char) : Option Nat :=
  digits.foldlM (fun n c => (digit? c).map fun d => 16 * n + d) 0

theorem digit?_digitChar (d : Nat) (h : d < 16) : digit? d.digitChar = some d := by
  have key : ∀ k ∈ List.range 16, digit? k.digitChar = some k := by decide +kernel
  exact key d (List.mem_range.mpr h)

theorem toNat?_concat (digits : List Char) (c : Char) :
    toNat? (digits ++ [c]) =
      (toNat? digits).bind fun n => (digit? c).map fun d => 16 * n + d := by
  unfold toNat?
  rw [List.foldlM_append]
  simp only [List.foldlM_cons, List.foldlM_nil, bind_pure]
  rfl

theorem toNat?_toDigits (n : Nat) : toNat? (Nat.toDigits 16 n) = some n := by
  induction n using Nat.strongRecOn with
  | ind n ih =>
      rw [Nat.toDigits_eq_if (by decide)]
      split_ifs with h
      · exact (toNat?_concat [] _).trans (by rw [digit?_digitChar n h]; simp [toNat?])
      · rw [toNat?_concat, ih (n / 16) (Nat.div_lt_self (by omega) (by decide)), Option.bind_some,
          digit?_digitChar _ (Nat.mod_lt _ (by decide)), Option.map_some, Nat.div_add_mod]

theorem isSome_digit?_of_mem {n : Nat} {c : Char} (h : c ∈ Nat.toDigits 16 n) :
    (digit? c).isSome = true := by
  induction n using Nat.strongRecOn with
  | ind n ih =>
      rw [Nat.toDigits_eq_if (by decide)] at h
      split_ifs at h with hsmall
      · rw [List.mem_singleton.mp h, digit?_digitChar n hsmall]
        rfl
      · rcases List.mem_append.mp h with h | h
        · exact ih (n / 16) (Nat.div_lt_self (by omega) (by decide)) h
        · rw [List.mem_singleton.mp h, digit?_digitChar _ (Nat.mod_lt _ (by decide))]
          rfl

end Hex
end Whereabouts
