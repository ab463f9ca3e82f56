import Mathlib.Data.Finset.Card
import Mathlib.Data.Fintype.Card
import Whereabouts.Capability.Basic

/-! # Sets of features

A set of features is known by its members (`ext_has`), so that unions and inclusion are those
of sets.  Rows that each bring in a new feature are at most as many as there are features:
`card_members_lt` counts the members that a union adds. -/

namespace Whereabouts

theorem getLsbD_one_shiftLeft {bit : Nat} (h : bit < 32) (i : Nat) :
    (UInt32.ofNat (1 <<< bit)).toBitVec.getLsbD i = decide (bit = i) := by
  rw [UInt32.toBitVec_ofNat', BitVec.getLsbD_ofNat, Nat.one_shiftLeft, Nat.testBit_two_pow]
  by_cases same : bit = i
  · simp [← same, h]
  · simp [same]

namespace Features

/-- Whether a feature, given by its bit, is in a set. -/
def has (f : Features) (bit : Nat) : Bool := f.bits.toBitVec.getLsbD bit

theorem ext_has {a b : Features} (h : ∀ i, a.has i = b.has i) : a = b := by
  cases a with
  | mk a =>
      cases b with
      | mk b =>
          have : a.toBitVec = b.toBitVec := BitVec.eq_of_getLsbD_eq fun i _ => h i
          rw [UInt32.toBitVec_inj.mp this]

@[simp] theorem has_none (i : Nat) : none.has i = false := by simp [has, none]

@[simp] theorem has_union (a b : Features) (i : Nat) :
    (a.union b).has i = (a.has i || b.has i) := by
  simp [has, union, UInt32.toBitVec_or]

theorem lt_of_has {f : Features} {i : Nat} (h : f.has i = true) : i < 32 :=
  BitVec.lt_of_getLsbD h

theorem includes_iff (a b : Features) :
    a.includes b = true ↔ ∀ i, b.has i = true → a.has i = true := by
  unfold includes
  rw [beq_iff_eq]
  constructor
  · intro h i hi
    have hb : (a.bits &&& b.bits).toBitVec.getLsbD i = true := by rw [h]; exact hi
    rw [UInt32.toBitVec_and, BitVec.getLsbD_and, Bool.and_eq_true] at hb
    exact hb.1
  · intro h
    apply UInt32.toBitVec_inj.mp
    apply BitVec.eq_of_getLsbD_eq
    intro i _
    rw [UInt32.toBitVec_and, BitVec.getLsbD_and]
    cases hb : b.bits.toBitVec.getLsbD i with
    | false => rw [Bool.and_false]
    | true => exact Bool.and_eq_true_iff.mpr ⟨h i hb, rfl⟩

/-- What is not included has a member of its own. -/
theorem includes_eq_false_iff (a b : Features) :
    a.includes b = false ↔ ∃ i, b.has i = true ∧ a.has i = false := by
  rw [← Bool.not_eq_true, includes_iff]
  push Not
  simp only [Bool.not_eq_true]

theorem union_of_includes {a b : Features} (h : a.includes b = true) : a.union b = a := by
  apply ext_has
  intro i
  rw [has_union]
  cases hb : b.has i with
  | false => rw [Bool.or_false]
  | true => rw [(includes_iff a b).mp h i hb]; rfl

theorem union_assoc (a b c : Features) : (a.union b).union c = a.union (b.union c) :=
  ext_has fun i => by simp [Bool.or_assoc]

theorem none_union (a : Features) : none.union a = a := ext_has fun i => by simp

theorem foldl_union (a : Features) (sets : List Features) :
    sets.foldl union a = a.union (unions sets) := by
  induction sets generalizing a with
  | nil => exact ext_has fun i => by simp [unions]
  | cons b sets ih =>
      unfold unions
      rw [List.foldl_cons, List.foldl_cons, none_union, ih, ih b, union_assoc]

theorem unions_cons (a : Features) (sets : List Features) :
    unions (a :: sets) = a.union (unions sets) := by
  rw [unions, List.foldl_cons, none_union, foldl_union]

theorem has_unions (sets : List Features) (i : Nat) :
    (unions sets).has i = sets.any fun f => f.has i := by
  induction sets with
  | nil => exact has_none i
  | cons a sets ih => rw [unions_cons, has_union, ih, List.any_cons]

/-! ### How many -/

/-- The members of a set. -/
def members (f : Features) : Finset (Fin 32) := Finset.univ.filter fun i => f.has i = true

theorem mem_members {f : Features} {i : Fin 32} : i ∈ f.members ↔ f.has i = true := by
  simp [members]

theorem card_members_le (f : Features) : f.members.card ≤ 32 := by
  have h := Finset.card_le_univ f.members
  rwa [Fintype.card_fin] at h

theorem card_members_lt {a b : Features} (h : a.includes b = false) :
    a.members.card < (a.union b).members.card := by
  apply Finset.card_lt_card
  obtain ⟨i, hb, ha⟩ := (includes_eq_false_iff a b).mp h
  have hi : i < 32 := lt_of_has hb
  rw [Finset.ssubset_iff_of_subset]
  · refine ⟨⟨i, hi⟩, ?_, ?_⟩
    · rw [mem_members, has_union, hb, Bool.or_true]
    · rw [mem_members, ha]
      exact Bool.false_ne_true
  · intro j hj
    rw [mem_members] at hj ⊢
    rw [has_union, hj, Bool.true_or]

end Features
end Whereabouts
