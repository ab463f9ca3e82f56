import Mathlib.Logic.Relation
import Whereabouts.Proofs.Coalescing
import Whereabouts.Proofs.QueueHistory

/-! # Spellings of one handle

A key is made from a handle character by character: full width is narrowed, white space is left
out, and what remains becomes small.  No character of a key is changed if a key is made again
(`Handle.settled_of_mem_key`), for what a capital letter becomes is neither white nor wide nor a
capital.  These are facts about the table of lower case: no run of it has the lower case of
another (`Lowercase.find?_lower`), and what is not wide stays narrow (`Handle.plain_lower`).

So a key is its own key (`Handle.key_key`).  Edits that leave the key as it is are white space put
in or taken out, characters of ASCII made wide or narrow, and their letters made small or capital
(`Handle.Edit`); handles that such edits lead from one to the other are `Handle.Alike`.  Rosters
and queues look handles up by their keys, so to them they are one: `Handle.key_folds`. -/

namespace Whereabouts

/-! ### The table of lower case -/

namespace Lowercase

/-- The numbers of the characters of a run. -/
def Run.members (r : Run) : List Nat :=
  (List.range ((r.last - r.first) / r.step + 1)).map fun k => r.first + r.step * k

/-- The lower case of a character of a run. -/
def Run.lower (r : Run) (n : Nat) : Nat := r.target + (n - r.first)

/-- Whether no lower case of one run belongs to another.  Most runs are apart as a whole, so few
are looked at number by number. -/
def Run.apart (r s : Run) : Bool :=
  Nat.blt (r.lower r.last) s.first || Nat.blt s.last r.target ||
    r.members.all fun n => !s.has (r.lower n)

theorem Run.bounds_of_has {r : Run} {n : Nat} (h : r.has n = true) : r.first ≤ n ∧ n ≤ r.last := by
  simp only [Run.has, Bool.and_eq_true, decide_eq_true_eq] at h
  exact h.1

theorem Run.mem_members {r : Run} {n : Nat} (h : r.has n = true) : n ∈ r.members := by
  simp only [Run.has, Bool.and_eq_true, decide_eq_true_eq, beq_iff_eq] at h
  obtain ⟨⟨hfirst, hlast⟩, hstep⟩ := h
  have hsteps := Nat.mul_div_cancel' (Nat.dvd_of_mod_eq_zero hstep)
  have hle : (n - r.first) / r.step ≤ (r.last - r.first) / r.step :=
    Nat.div_le_div_right (Nat.sub_le_sub_right hlast r.first)
  rw [Run.members, List.mem_map]
  exact ⟨(n - r.first) / r.step, List.mem_range.mpr (Nat.lt_succ_of_le hle), by omega⟩

theorem Run.has_lower {r s : Run} (h : r.apart s = true) {n : Nat} (hn : r.has n = true) :
    s.has (r.lower n) = false := by
  obtain ⟨-, hlast⟩ := Run.bounds_of_has hn
  simp only [Run.apart, Run.lower, Bool.or_eq_true, Nat.blt_eq, List.all_eq_true,
    Bool.not_eq_true'] at h
  obtain hapart | hall := h
  · rw [Bool.eq_false_iff]
    intro hhas
    obtain ⟨hlow, hhigh⟩ := Run.bounds_of_has hhas
    unfold Run.lower at hlow hhigh
    omega
  · exact hall n (Run.mem_members hn)

theorem runs_apart : (runs.all fun r => runs.all r.apart) = true := by
  decide +kernel

theorem has_of_find? {n : Nat} {rs : List Run} {r : Run} (h : find? n rs = some r) :
    r ∈ rs ∧ r.has n = true := by
  induction rs with
  | nil => cases h
  | cons s rs ih =>
      rw [find?] at h
      split_ifs at h with hbehind hhas
      · obtain rfl := Option.some.inj h
        exact ⟨List.mem_cons_self, hhas⟩
      · obtain ⟨hr, hn⟩ := ih h
        exact ⟨List.mem_cons_of_mem s hr, hn⟩

theorem find?_lower {r : Run} {n : Nat} (h : find? n runs = some r) :
    find? (r.lower n) runs = none := by
  obtain ⟨hr, hn⟩ := has_of_find? h
  rw [Option.eq_none_iff_forall_ne_some]
  intro s hs
  obtain ⟨hmem, hhas⟩ := has_of_find? hs
  have hapart := List.all_eq_true.mp (List.all_eq_true.mp runs_apart r hr) s hmem
  rw [Run.has_lower hapart hn] at hhas
  cases hhas

theorem ofChar_of_find?_eq_none {c : Char} (hdot : c ≠ '\u0130')
    (h : find? c.toNat runs = none) : ofChar c = [c] := by
  rw [ofChar, if_neg hdot, h]

end Lowercase

namespace Handle

/-! ### Settled characters -/

/-- Whether a character is one of ASCII in full width. -/
def IsWide (c : Char) : Prop := 0xFF01 ≤ c.toNat ∧ c.toNat ≤ 0xFF5E

instance (c : Char) : Decidable (IsWide c) :=
  inferInstanceAs (Decidable (0xFF01 ≤ c.toNat ∧ c.toNat ≤ 0xFF5E))

/-- Whether a character is its own key. -/
def Settled (c : Char) : Prop := keyOfChar c = [c]

instance (c : Char) : Decidable (Settled c) := inferInstanceAs (Decidable (keyOfChar c = [c]))

theorem forall_range {P : Char → Prop} (first count : Nat)
    (h : ∀ n ∈ List.range' first count, P (Char.ofNat n)) {c : Char} (hlow : first ≤ c.toNat)
    (hhigh : c.toNat < first + count) : P c := by
  have hc := h c.toNat (List.mem_range'_1.mpr ⟨hlow, hhigh⟩)
  rwa [Char.ofNat_toNat] at hc

theorem narrow_of_not_isWide {c : Char} (h : ¬ IsWide c) (hspace : c.toNat ≠ 0x3000) :
    narrow c = c :=
  (if_neg h).trans (if_neg hspace)

theorem narrow_of_toNat {c : Char} (h : c.toNat = 0x3000) : narrow c = ' ' := by
  rw [← Char.ofNat_toNat c, h]
  decide

theorem not_isWide_narrow (c : Char) : ¬ IsWide (narrow c) ∧ (narrow c).toNat ≠ 0x3000 := by
  by_cases h : IsWide c
  · exact forall_range (P := fun c => ¬ IsWide (narrow c) ∧ (narrow c).toNat ≠ 0x3000)
      0xFF01 94 (by decide +kernel) h.1 (Nat.lt_succ_of_le h.2)
  by_cases hspace : c.toNat = 0x3000
  · rw [narrow_of_toNat hspace]
    decide
  · rw [narrow_of_not_isWide h hspace]
    exact ⟨h, hspace⟩

@[simp] theorem narrow_narrow (c : Char) : narrow (narrow c) = narrow c :=
  narrow_of_not_isWide (not_isWide_narrow c).1 (not_isWide_narrow c).2

/-- The lower case of a run is a narrow character that is not white, but for the small letters in
full width, whose capitals are narrowed before they become small. -/
theorem plain_lower :
    ∀ r ∈ Lowercase.runs, ∀ n ∈ r.members,
      let d := Char.ofNat (r.lower n)
      (0xFF01 ≤ n ∧ n ≤ 0xFF5E) ∨
        d.toNat = r.lower n ∧ d ≠ '\u0130' ∧ narrow d = d ∧ isBlank d = false := by
  decide +kernel

theorem settled_of_ofChar {d : Char} (hnarrow : narrow d = d) (hblank : isBlank d = false)
    (h : Lowercase.ofChar d = [d]) : Settled d := by
  rw [Settled, keyOfChar, hnarrow, hblank, if_neg Bool.false_ne_true, h]

theorem settled_lower {n : Nat} {r : Lowercase.Run}
    (h : Lowercase.find? n Lowercase.runs = some r) (hwide : ¬ (0xFF01 ≤ n ∧ n ≤ 0xFF5E)) :
    Settled (Char.ofNat (r.lower n)) := by
  obtain ⟨hr, hhas⟩ := Lowercase.has_of_find? h
  obtain ⟨hnat, hdot, hnarrow, hblank⟩ :=
    (plain_lower r hr n (Lowercase.Run.mem_members hhas)).resolve_left hwide
  have hnone := Lowercase.find?_lower h
  rw [← hnat] at hnone
  exact settled_of_ofChar hnarrow hblank (Lowercase.ofChar_of_find?_eq_none hdot hnone)

theorem settled_of_mem_ofChar {c d : Char} (hnarrow : narrow c = c) (hwide : ¬ IsWide c)
    (hblank : isBlank c = false) (h : d ∈ Lowercase.ofChar c) : Settled d := by
  by_cases hdot : c = '\u0130'
  · have hletter : Settled 'i' := by decide +kernel
    have hdots : Settled '\u0307' := by decide +kernel
    rw [Lowercase.ofChar, if_pos hdot, List.mem_pair] at h
    obtain rfl | rfl := h
    · exact hletter
    · exact hdots
  cases hfind : Lowercase.find? c.toNat Lowercase.runs with
  | none =>
      have hsame := Lowercase.ofChar_of_find?_eq_none hdot hfind
      rw [hsame] at h
      obtain rfl := List.mem_singleton.mp h
      exact settled_of_ofChar hnarrow hblank hsame
  | some r =>
      rw [Lowercase.ofChar, if_neg hdot, hfind] at h
      obtain rfl := List.mem_singleton.mp h
      exact settled_lower hfind hwide

theorem settled_of_mem_keyOfChar {c d : Char} (h : d ∈ keyOfChar c) : Settled d := by
  rw [keyOfChar] at h
  split_ifs at h with hblank
  · cases h
  · exact settled_of_mem_ofChar (narrow_narrow c) (not_isWide_narrow c).1
      (Bool.not_eq_true _ ▸ hblank) h

theorem settled_of_mem_key {handle : String} {d : Char} (h : d ∈ (key handle).toList) :
    Settled d := by
  rw [key, String.toList_ofList, List.mem_flatMap] at h
  obtain ⟨c, -, hd⟩ := h
  exact settled_of_mem_keyOfChar hd

theorem key_key (handle : String) : key (key handle) = key handle := by
  have hsettled : ∀ cs : List Char, (∀ d ∈ cs, Settled d) → cs.flatMap keyOfChar = cs := by
    intro cs h
    induction cs with
    | nil => rfl
    | cons d cs ih =>
        obtain ⟨hd, hrest⟩ := List.forall_mem_cons.mp h
        rw [List.flatMap_cons, ih hrest, hd, List.singleton_append]
  rw [key, hsettled _ fun d => settled_of_mem_key, String.ofList_toList]

/-! ### White space, width and case -/

/-- Whether a character is a capital letter of ASCII, in either width. -/
def IsCapital (c : Char) : Prop :=
  (0x41 ≤ c.toNat ∧ c.toNat ≤ 0x5A) ∨ (0xFF21 ≤ c.toNat ∧ c.toNat ≤ 0xFF3A)

/-- The small letter of a capital letter. -/
def small (c : Char) : Char := Char.ofNat (c.toNat + 32)

/-- A printable character of ASCII in full width. -/
def widen (c : Char) : Char := if c = ' ' then '\u3000' else Char.ofNat (c.toNat + 0xFEE0)

theorem isBlank_narrow {c : Char} (h : isBlank c = true) : isBlank (narrow c) = true := by
  by_cases hspace : c.toNat = 0x3000
  · rw [narrow_of_toNat hspace]
    decide
  · have hwide : ¬ IsWide c := by
      rintro ⟨hlow, -⟩
      simp only [isBlank, Bool.or_eq_true, Bool.and_eq_true, decide_eq_true_eq, beq_iff_eq] at h
      omega
    rwa [narrow_of_not_isWide hwide hspace]

theorem keyOfChar_of_isBlank {c : Char} (h : isBlank c = true) : keyOfChar c = [] :=
  if_pos (isBlank_narrow h)

theorem keyOfChar_widen {c : Char} (hlow : 0x20 ≤ c.toNat) (hhigh : c.toNat ≤ 0x7E) :
    keyOfChar (widen c) = keyOfChar c :=
  forall_range (P := fun c => keyOfChar (widen c) = keyOfChar c) 0x20 95 (by decide +kernel) hlow
    (Nat.lt_succ_of_le hhigh)

/-- A capital letter adds the small letter, which is another. -/
theorem keyOfChar_small {c : Char} (h : IsCapital c) :
    keyOfChar (small c) = keyOfChar c ∧ ¬ Settled c := by
  let P : Char → Prop := fun c => keyOfChar (small c) = keyOfChar c ∧ ¬ Settled c
  obtain ⟨hlow, hhigh⟩ | ⟨hlow, hhigh⟩ := h
  · exact forall_range (P := P) 0x41 26 (by decide +kernel) hlow (Nat.lt_succ_of_le hhigh)
  · exact forall_range (P := P) 0xFF21 26 (by decide +kernel) hlow (Nat.lt_succ_of_le hhigh)

theorem not_settled_of_isWide {c : Char} (h : IsWide c) : ¬ Settled c :=
  forall_range (P := fun c => ¬ Settled c) 0xFF01 94 (by decide +kernel) h.1 (Nat.lt_succ_of_le h.2)

theorem isBlank_of_settled {c : Char} (h : Settled c) : isBlank c = false := by
  rw [Bool.eq_false_iff]
  intro hblank
  rw [Settled, keyOfChar_of_isBlank hblank] at h
  cases h

/-! ### Edits -/

/-- One edit of a handle that leaves it the same handle. -/
inductive Edit : String → String → Prop where
  /-- White space is put in. -/
  | blank (front back : String) {c : Char} (h : isBlank c = true) :
      Edit (front ++ back) (front ++ String.singleton c ++ back)
  /-- A printable character of ASCII takes its full width. -/
  | widen (front back : String) {c : Char} (hlow : 0x20 ≤ c.toNat) (hhigh : c.toNat ≤ 0x7E) :
      Edit (front ++ String.singleton c ++ back) (front ++ String.singleton (widen c) ++ back)
  /-- A capital letter becomes small. -/
  | small (front back : String) {c : Char} (h : IsCapital c) :
      Edit (front ++ String.singleton c ++ back) (front ++ String.singleton (small c) ++ back)

/-- Whether edits, done and undone in any order, lead from one handle to the other. -/
def Alike : String → String → Prop := Relation.EqvGen Edit

theorem key_singleton (c : Char) : key (String.singleton c) = String.ofList (keyOfChar c) := by
  rw [key, String.toList_singleton, List.flatMap_singleton]

theorem key_of_edit {a b : String} (h : Edit a b) : key a = key b := by
  cases h with
  | blank front back h =>
      rw [key_append, key_append, key_append, key_singleton, keyOfChar_of_isBlank h,
        String.ofList_nil, String.append_empty]
  | widen front back hlow hhigh =>
      simp only [key_append, key_singleton, keyOfChar_widen hlow hhigh]
  | small front back h => simp only [key_append, key_singleton, (keyOfChar_small h).1]

theorem key_of_alike {a b : String} (h : Alike a b) : key a = key b := by
  induction h with
  | rel a b h => exact key_of_edit h
  | refl a => rfl
  | symm a b _ ih => exact ih.symm
  | trans a b c _ _ hab hbc => exact hab.trans hbc

end Handle

/-! ### Where handles are looked up -/

namespace Roster

/-- An update leaves the merged record in the place of its key. -/
theorem atKey?_merge_self (r : Roster) (update : Record) :
    (r.merge update).1.atKey? update.key = some (r.merge update).2.1 := by
  unfold merge
  split
  · rw [atKey?_insertNew, if_pos rfl]
  · rename_i known hknown
    rw [atKey?_update, if_pos rfl, hknown, Option.map_some]

theorem change_merge (r : Roster) (update : Record) :
    (r.merge update).2.2 = if (r.atKey? update.key).isSome then .updated else .created := by
  unfold merge
  split
  · rename_i hnone
    simp [hnone]
  · rename_i known hknown
    simp [hknown]

end Roster

namespace Handle

/-- Two handles have one place in every roster and in every queue. -/
structure OnePlace (a b : String) : Prop where
  find? : ∀ r : Roster, r.find? a = r.find? b
  erase : ∀ r : Roster, r.erase a = r.erase b
  /-- What is learned under one spelling is known under the other. -/
  learned : ∀ (r : Roster) (update : Record), update.handle = a →
    (r.merge update).1.find? b = some (r.merge update).2.1
  change : ∀ (r : Roster) (update : Record),
    (r.merge { update with handle := a }).2.2 = (r.merge { update with handle := b }).2.2
  isPending : ∀ q : RequestQueue, q.isPending a = q.isPending b
  resolve : ∀ q : RequestQueue, q.resolve a = q.resolve b
  fate : ∀ (q : RequestQueue) (kind : Request.Kind),
    (q.request a kind).2 = (q.request b kind).2
  /-- Asking under either spelling leaves the same keys awaited, in the same ways. -/
  awaits? : ∀ (q : RequestQueue) (kind : Request.Kind) (k : String),
    (q.request a kind).1.awaits? k = (q.request b kind).1.awaits? k

theorem onePlace_of_key {a b : String} (h : key a = key b) : OnePlace a b := by
  have hfate : ∀ (q : RequestQueue) (kind : Request.Kind),
      (q.request a kind).2 = (q.request b kind).2 := by
    intro q kind
    rw [RequestQueue.fate_request, RequestQueue.fate_request, h]
  refine
    { find? := fun r => congrArg r.atKey? h
      erase := fun r => ?_
      learned := fun r update hupdate => ?_
      change := fun r update => ?_
      isPending := fun q => ?_
      resolve := fun q => ?_
      fate := hfate
      awaits? := fun q kind k => ?_ }
  · simp only [Roster.erase, h]
  · have hkey : update.key = key b := by rw [Record.key, hupdate, h]
    rw [Roster.find?, ← hkey, Roster.atKey?_merge_self]
  · have hkey : Record.key { update with handle := a } = Record.key { update with handle := b } := h
    rw [Roster.change_merge, Roster.change_merge, hkey]
  · rw [RequestQueue.isPending, RequestQueue.isPending, h]
  · simp only [RequestQueue.resolve, h]
  · rw [RequestQueue.awaits?_request, RequestQueue.awaits?_request, hfate, h]

/-- **Handles fold to keys.**  A key is taken character by character, has neither white space nor
capital letters nor full width of ASCII, and is its own key.  Spellings that edits lead from one to
the other have one key, and so one place in every roster and every queue; their key is itself a
handle that leads there. -/
theorem key_folds :
    (∀ a b : String, key (a ++ b) = key a ++ key b) ∧
    (∀ a : String, key (key a) = key a ∧
      (∀ c ∈ (key a).toList, isBlank c = false ∧ ¬ IsCapital c ∧ ¬ IsWide c) ∧
      OnePlace (key a) a) ∧
    ∀ a b : String, Alike a b → key a = key b ∧ OnePlace a b := by
  refine ⟨key_append, fun a => ⟨key_key a, fun c hc => ?_, onePlace_of_key (key_key a)⟩,
    fun a b h => ⟨key_of_alike h, onePlace_of_key (key_of_alike h)⟩⟩
  have hsettled := settled_of_mem_key hc
  exact ⟨isBlank_of_settled hsettled, fun h => (keyOfChar_small h).2 hsettled,
    fun h => not_settled_of_isWide h hsettled⟩

theorem key_folds_wide :
    Alike "Ａ\u3000b" "ab" ∧ key "Ａ\u3000b" = key "ab" ∧ OnePlace "Ａ\u3000b" "ab" := by
  have hwide : Alike "A\u3000b" "Ａ\u3000b" :=
    .rel _ _ (.widen "" "\u3000b" (c := 'A') (by decide) (by decide))
  have hblank : Alike "Ab" "A\u3000b" := .rel _ _ (.blank "A" "b" (c := '\u3000') (by decide))
  have hsmall : Alike "Ab" "ab" := .rel _ _ (.small "" "b" (c := 'A') (.inl (by decide)))
  have halike : Alike "Ａ\u3000b" "ab" :=
    .trans _ _ _ (.symm _ _ hwide) (.trans _ _ _ (.symm _ _ hblank) hsmall)
  exact ⟨halike, key_folds.2.2 _ _ halike⟩

end Handle
end Whereabouts
