import Whereabouts.Proofs.Cursor
import Whereabouts.Record.Codec

/-! # What a reading is made of

A reading is that of a counted block, to which that of a trailer may have been added.  What holds
of the first and is kept by the second holds of every reading (`Record.holds_of_decode`).  An entry
that stands for a number says what the number does, or nothing (`Entry.holds_ofWord16`).

A reading remarks on each identifier that is in neither table, so the remarks of this kind are as
many as the reading counts (`Record.unmatchedRemarks_of_decode`). -/

namespace Whereabouts

namespace Entry

variable {P : Entry → Prop}

theorem holds_ofWord16 (hvoid : P .void) (t : Tlv) {entry : UInt16 → Entry}
    (h : ∀ v, P (entry v)) : P (ofWord16 t entry) := by
  unfold ofWord16
  split
  · exact h _
  · exact hvoid

theorem holds_ofWord32 (hvoid : P .void) (t : Tlv) {entry : UInt32 → Entry}
    (h : ∀ v, P (entry v)) : P (ofWord32 t entry) := by
  unfold ofWord32
  split
  · exact h _
  · exact hvoid

end Entry

namespace Record

variable {cat : Catalogue} {P : Reading → Prop} {reading : Reading}

theorem holds_of_readBlock
    (hblock : ∀ handle level found, P (.ofBlock cat handle level found)) {c c' : Cursor}
    (h : readBlock cat c = .ok reading c') : P reading := by
  obtain ⟨handle, c₁, -, h⟩ := Reader.bind_inv h
  obtain ⟨level, c₂, -, h⟩ := Reader.bind_inv h
  obtain ⟨count, c₃, -, h⟩ := Reader.bind_inv h
  obtain ⟨found, c₄, -, h⟩ := Reader.bind_inv h
  obtain ⟨rfl, -⟩ := Reader.pure_inv h
  exact hblock _ level found

theorem holds_of_read
    (hblock : ∀ handle level found, P (.ofBlock cat handle level found))
    (htrailer : ∀ r bytes, P r → P (r.addTrailer cat (Chain.split bytes.length bytes).1))
    {c c' : Cursor} (h : read cat c = .ok reading c') : P reading := by
  obtain ⟨block, c₁, hread, h⟩ := Reader.bind_inv h
  obtain ⟨here, c₂, -, h⟩ := Reader.bind_inv h
  split_ifs at h
  · obtain ⟨rfl, -⟩ := Reader.pure_inv h
    exact holds_of_readBlock hblock hread
  · obtain ⟨found, c₃, hfound, h⟩ := Reader.bind_inv h
    obtain ⟨rfl, -⟩ := Reader.pure_inv h
    obtain ⟨rfl, -⟩ := Reader.parse_inv hfound
    exact htrailer block _ (holds_of_readBlock hblock hread)

theorem exists_read_of_decode {bytes : Bytes} (h : decode cat bytes = .ok reading) :
    ∃ c, read cat (.ofBytes bytes) = .ok reading c := by
  unfold decode at h
  split at h
  · rename_i c hread
    obtain rfl := Except.ok.inj h
    exact ⟨c, hread⟩
  · cases h

/-- **What a block has and a trailer keeps, every reading has.** -/
theorem holds_of_decode
    (hblock : ∀ handle level found, P (.ofBlock cat handle level found))
    (htrailer : ∀ r bytes, P r → P (r.addTrailer cat (Chain.split bytes.length bytes).1))
    {bytes : Bytes} (h : decode cat bytes = .ok reading) : P reading := by
  obtain ⟨c, hread⟩ := exists_read_of_decode h
  exact holds_of_read hblock htrailer hread

end Record

/-! ### Remarks on identifiers -/

namespace Remark

/-- Whether a remark is on an identifier, full or short, that is in neither table. -/
def isUnmatched : Remark → Bool
  | unmatched _ | unmatchedShort _ => true
  | _ => false

/-- How many remarks are on an identifier in neither table. -/
def countUnmatched (remarks : List Remark) : Nat := remarks.countP isUnmatched

theorem countUnmatched_append (a b : List Remark) :
    countUnmatched (a ++ b) = countUnmatched a + countUnmatched b := List.countP_append

theorem countUnmatched_ofFound (found : List Tlv.Found) : countUnmatched (ofFound found) = 0 := by
  unfold countUnmatched ofFound
  rw [List.countP_map, List.countP_eq_zero]
  intro f _
  exact Bool.false_ne_true

theorem countUnmatched_map {remark : Bytes → Remark} (h : ∀ id, (remark id).isUnmatched = true)
    (ids : List Bytes) : countUnmatched (ids.map remark) = ids.length := by
  unfold countUnmatched
  rw [List.countP_map, List.countP_eq_length]
  intro id _
  exact h id

theorem countUnmatched_flatMap {α : Type} {remarks : α → List Remark} {ids : α → List Bytes}
    (h : ∀ a, countUnmatched (remarks a) = (ids a).length) (l : List α) :
    countUnmatched (l.flatMap remarks) = (l.flatMap ids).length := by
  induction l with
  | nil => rfl
  | cons a l ih =>
      rw [List.flatMap_cons, countUnmatched_append, List.flatMap_cons, List.length_append, h, ih]

end Remark

theorem Extra.countUnmatched_remarks (x : Extra) : Remark.countUnmatched x.remarks = 0 := by
  cases x <;> rfl

theorem Entry.countUnmatched_remarks (e : Entry) :
    Remark.countUnmatched e.remarks = e.unmatched.length := by
  cases e with
  | capabilities scan => exact Remark.countUnmatched_map (fun _ => rfl) scan.unmatched
  | shortCapabilities scan => exact Remark.countUnmatched_map (fun _ => rfl) scan.unmatched
  | extras entries =>
      have hnone : Remark.countUnmatched (entries.flatMap Extra.remarks) =
          (entries.flatMap fun _ => ([] : List Bytes)).length :=
        Remark.countUnmatched_flatMap Extra.countUnmatched_remarks entries
      rw [List.flatMap_eq_nil_iff.mpr fun _ _ => rfl] at hnone
      exact hnone
  | _ => rfl

/-- **Each identifier that is counted as unmatched is remarked on, and no other.** -/
theorem Record.unmatchedRemarks_of_decode {cat : Catalogue} {bytes : Bytes} {reading : Reading}
    (h : Record.decode cat bytes = .ok reading) :
    Remark.countUnmatched reading.remarks = reading.unmatched := by
  refine Record.holds_of_decode
    (P := fun reading => Remark.countUnmatched reading.remarks = reading.unmatched) ?_ ?_ h
  · intro handle level found
    unfold Reading.ofBlock
    rw [Remark.countUnmatched_append, Remark.countUnmatched_append,
      Remark.countUnmatched_ofFound, Nat.zero_add,
      Remark.countUnmatched_flatMap Entry.countUnmatched_remarks]
    rfl
  · intro r bytes hr
    unfold Reading.addTrailer
    rw [Remark.countUnmatched_append, Remark.countUnmatched_append,
      Remark.countUnmatched_ofFound, hr]
    exact congrArg (r.unmatched + 0 + ·) (Remark.countUnmatched_map (fun _ => rfl) _)

end Whereabouts
