import Whereabouts.Proofs.Catalogue
import Whereabouts.Proofs.Checked.Blocks

/-! # What a block of identifiers says

A block is looked through twice: for features, and then, from where it began, for an icon, which
also takes back what the first pass missed.  One look at each identifier would find the same, in any
catalogue: `Surveys` says what it finds, and says it of one scan only (`Surveys.unique`).

What two passes find is what one does because each identifier is judged on its own
(`Checked.scan_eq`, `neither_eq`); which row it stands for is a matter of the first row that has it,
and of whether its number fits an octet (`Catalogue.findIcon?_eq_some_iff`). -/

namespace Whereabouts
namespace Catalogue

/-- Whether an identifier is of a capability or of an icon that has a number. -/
def lists (cat : Catalogue) (id : Bytes) : Bool :=
  id ∈ cat.capabilities.map (fun row => row.id.bytes) ∨
    id ∈ (cat.icons.take 256).tail.map fun row => row.id.bytes

/-- What identifiers say, each of them looked at once. -/
structure Surveys (cat : Catalogue) (ids : List Bytes) (s : Scan) : Prop where
  features : ∀ bit, s.features.has bit = true ↔
    ∃ id ∈ ids, ∃ row, cat.FirstCapability id row ∧ row.features.has bit = true
  icon : ∀ icon, s.icon = some icon ↔ ∃ before id after, ids = before ++ id :: after ∧
    cat.FirstIcon (fun row => row.id.bytes == id) icon ∧
    ∀ other ∈ before, ∀ icon', ¬ cat.FirstIcon (fun row => row.id.bytes == other) icon'
  /-- Each place counts. -/
  unmatched : s.unmatched = ids.filter fun id => !cat.lists id

variable {cat : Catalogue}

theorem neither_eq (cat : Catalogue) (id : Bytes) : Checked.neither cat id = !cat.lists id := by
  have hfeatures : (cat.features? id).isNone = true ↔
      id ∉ cat.capabilities.map fun row => row.id.bytes := by
    simp [features?, List.find?_eq_none]
  have hicon : (cat.icon? id).isNone = true ↔
      id ∉ (cat.icons.take 256).tail.map fun row => row.id.bytes := by
    rw [Option.isNone_iff_eq_none, icon?, findIcon?_eq_none_iff]
    simp only [beq_eq_false_iff_ne, ne_eq, List.mem_map, not_exists, not_and]
  rw [Bool.eq_iff_iff]
  unfold Checked.neither Checked.missed lists
  rw [Bool.and_eq_true, hfeatures, hicon]
  simp only [Bool.not_eq_true', decide_eq_false_iff_not, not_or]

theorem surveys_scan (cat : Catalogue) (block : Bytes) :
    cat.Surveys (Bytes.pieces Identifier.width block) (cat.scan block) := by
  rw [Checked.scan_eq]
  refine { features := ?_, icon := ?_, unmatched := ?_ }
  · intro bit
    rw [Features.has_unions, List.any_eq_true]
    constructor
    · rintro ⟨f, hf, hbit⟩
      obtain ⟨id, hid, hfeatures⟩ := List.mem_filterMap.mp hf
      obtain ⟨row, hrow, rfl⟩ := features?_eq_some_iff.mp hfeatures
      exact ⟨id, hid, row, hrow, hbit⟩
    · rintro ⟨id, hid, row, hrow, hbit⟩
      have hfeatures := features?_eq_some_iff.mpr ⟨row, hrow, rfl⟩
      exact ⟨row.features, List.mem_filterMap.mpr ⟨id, hid, hfeatures⟩, hbit⟩
  · intro icon
    rw [List.findSome?_eq_some_iff]
    simp only [icon?, findIcon?_eq_some_iff, Option.eq_none_iff_forall_ne_some, ne_eq]
  · exact List.filter_congr fun id _ => neither_eq cat id

theorem Surveys.unique {ids : List Bytes} {s s' : Scan} (h : cat.Surveys ids s)
    (h' : cat.Surveys ids s') : s = s' := by
  have hfeatures : s.features = s'.features :=
    Features.ext_has fun bit => Bool.eq_iff_iff.mpr ((h.features bit).trans (h'.features bit).symm)
  have hicon : s.icon = s'.icon :=
    Option.ext fun icon => (h.icon icon).trans (h'.icon icon).symm
  have hunmatched : s.unmatched = s'.unmatched := h.unmatched.trans h'.unmatched.symm
  cases s
  cases s'
  simp only at hfeatures hicon hunmatched
  rw [hfeatures, hicon, hunmatched]

end Catalogue

/-! ### The parts of a block -/

theorem Bytes.piecesAfter_eq_map (width count : Nat) (bytes : Bytes) :
    piecesAfter width count bytes [] =
      (List.range count).map fun k => (bytes.drop (width * k)).take width := by
  induction count generalizing bytes with
  | zero => rfl
  | succ count ih =>
      rw [piecesAfter, piecesAfter_eq, ih, List.range_succ_eq_map, List.map_cons, List.map_map,
        Nat.mul_zero, List.drop_zero, List.reverse_singleton, List.singleton_append]
      refine congrArg _ (List.map_congr_left fun k _ => ?_)
      rw [Function.comp_apply, List.drop_drop, Nat.mul_succ, Nat.add_comm]

/-- The identifiers from the position on, within at most `length` octets. -/
def Cursor.identifiers (c : Cursor) (length : Nat) : List Bytes :=
  (List.range (min length c.remaining / Identifier.width)).map fun k =>
    (c.buffer.drop (c.position + Identifier.width * k)).take Identifier.width

theorem Cursor.pieces_take (c : Cursor) (length : Nat) :
    Bytes.pieces Identifier.width (c.unread.take length) = c.identifiers length := by
  unfold Bytes.pieces identifiers
  rw [Bytes.piecesAfter_eq_map, List.length_take, length_unread]
  refine List.map_congr_left fun k hk => ?_
  have hfits : Identifier.width * k + Identifier.width ≤ length := by
    have hle : Identifier.width * (k + 1) ≤
        Identifier.width * (min length c.remaining / Identifier.width) :=
      Nat.mul_le_mul_left _ (List.mem_range.mp hk)
    have hdiv := Nat.mul_div_le (min length c.remaining) Identifier.width
    rw [Nat.mul_succ] at hle
    omega
  rw [List.drop_take, List.take_take, Nat.min_eq_left (by omega), unread, List.drop_drop]

namespace Catalogue

/-- **Two passes over a block find what one would find**, wherever it begins and whatever its tables
are, and leave the cursor behind the block and its tail. -/
theorem readBlock_surveys (cat : Catalogue) (length : Nat) (c : Cursor) :
    ∃ s c', cat.readBlock length c = .ok s c' ∧
      (∀ r, cat.Surveys (c.identifiers length) r ↔ r = s) ∧
      c'.buffer = c.buffer ∧ c'.position = c.position + min length c.remaining ∧
      (c.Addressable → Checked.Runs (Checked.scan cat length) c (s, s.unmatched.length) c') := by
  have hsurvey := cat.surveys_scan (c.unread.take length)
  rw [Cursor.pieces_take] at hsurvey
  refine ⟨cat.scan (c.unread.take length), c.advance length, rfl, ?_, rfl, ?_, ?_⟩
  · exact fun r => ⟨fun hr => hr.unique hsurvey, fun hr => hr ▸ hsurvey⟩
  · exact c.position_advance length
  · exact fun hc => (Checked.follows_scan cat length c hc).runs rfl

/-- A catalogue with an identifier in both tables, twice among the capabilities, and with one behind
the last icon that has a number. -/
def crowded : Catalogue where
  capabilities := [⟨.ofBit 0, "first", .ofNat 1⟩, ⟨.ofBit 1, "second", .ofNat 1⟩]
  icons := [⟨"none", "", .ofNat 3⟩, ⟨"shared", "", .ofNat 1⟩] ++
    List.replicate 254 ⟨"filler", "", .ofNat 4⟩ ++ [⟨"beyond", "", .ofNat 2⟩]

/-- Four identifiers and two octets, behind one octet that was read. -/
def crowdedBlock : Bytes :=
  [9] ++ (Identifier.ofNat 2).bytes ++ (Identifier.ofNat 3).bytes ++ (Identifier.ofNat 1).bytes ++
    (Identifier.ofNat 3).bytes ++ [0, 0]

/-- The first row of the shared identifier counts, as does its icon; the number of the last row does
not fit an octet, and row 0 is none. -/
theorem readBlock_surveys_crowded :
    ∃ s c', crowded.readBlock (2 ^ 64 - 1) ((Cursor.ofBytes crowdedBlock).seek 1) = .ok s c' ∧
      crowded.Surveys (((Cursor.ofBytes crowdedBlock).seek 1).identifiers (2 ^ 64 - 1)) s ∧
      s.features = .ofBit 0 ∧ s.icon = Icon.ofNat? 1 ∧
      s.unmatched = [2, 3, 3].map (fun n => (Identifier.ofNat n).bytes) ∧ c'.unread = [] ∧
      Checked.Runs (Checked.scan crowded (2 ^ 64 - 1)) ((Cursor.ofBytes crowdedBlock).seek 1)
        (s, 3) c' := by
  obtain ⟨s, c', hread, hsurvey, hbuffer, hposition, hruns⟩ :=
    readBlock_surveys crowded (2 ^ 64 - 1) ((Cursor.ofBytes crowdedBlock).seek 1)
  have hs : s = ⟨.ofBit 0, Icon.ofNat? 1, [2, 3, 3].map fun n => (Identifier.ofNat n).bytes⟩ := by
    have hscan : crowded.scan (crowdedBlock.drop 1) =
        ⟨.ofBit 0, Icon.ofNat? 1, [2, 3, 3].map fun n => (Identifier.ofNat n).bytes⟩ := by
      decide +kernel
    obtain ⟨rfl, -⟩ := EStateM.Result.ok.inj hread
    exact hscan
  have hunread : c'.unread = [] := by
    unfold Cursor.unread
    rw [hbuffer, hposition]
    decide +kernel
  have haddressable : ((Cursor.ofBytes crowdedBlock).seek 1).Addressable := by
    unfold Cursor.Addressable
    decide +kernel
  have hrun := hruns haddressable
  have hcount : s.unmatched.length = 3 := by
    rw [hs]
    rfl
  rw [hcount] at hrun
  exact ⟨s, c', hread, (hsurvey s).mpr rfl, by rw [hs], by rw [hs], by rw [hs], hunread, hrun⟩

end Catalogue
end Whereabouts
