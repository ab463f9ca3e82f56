import Whereabouts.Proofs.Chain
import Whereabouts.Proofs.Readings

/-! # What a reading counts

A reading is put together entry by entry (`Reading.ofBlock_eq`, `Reading.addTrailer_eq`), and each
entry counts for no more than the octets that it takes (`Entry.countsAtMost_ofTlv`).  So what a
block counts is never more than the position behind it (`Record.counts_of_readBlock`). -/

namespace Whereabouts

/-! ### Entry by entry -/

/-- Whether an entry says nothing to count or to remark on. -/
structure Entry.Quiet (e : Entry) : Prop where
  unmatched : e.unmatched = []
  unknown : e.unknownTypes = []
  remarks : e.remarks = []

theorem Entry.quiet_void : Entry.void.Quiet := ⟨rfl, rfl, rfl⟩

namespace Reading

/-- A reading with an entry of the counted block. -/
def addEntry (r : Reading) (e : Entry) : Reading where
  record := e.apply r.record
  unmatched := r.unmatched + e.unmatched.length
  unknown := r.unknown + e.unknownTypes.length
  remarks := r.remarks ++ e.remarks

/-- A reading with an entry of the extras. -/
def addExtra (r : Reading) (e : Extra) : Reading :=
  { r with
    record := { r.record with extras := some (Extra.apply (r.record.extras.getD {}) e) }
    unknown := r.unknown + e.unknownTypes.length
    remarks := r.remarks ++ e.remarks }

/-- A reading with a block of identifiers. -/
def addScan (remark : Bytes → Remark) (r : Reading) (s : Scan) : Reading :=
  { r with
    record := r.record.addScan s
    unmatched := r.unmatched + s.unmatched.length
    remarks := r.remarks ++ s.unmatched.map remark }

/-- A reading with the texts of a trailer. -/
def addTexts (r : Reading) (found : List Tlv.Found) : Reading :=
  let entries := Chain.ofFound found
  { r with
    record := { r.record with
      profile := (Trailer.textOf entries .profile .profileEncoding).or r.record.profile
      awayMessage := (Trailer.textOf entries .awayMessage .awayEncoding).or r.record.awayMessage }
    remarks := r.remarks ++ Remark.ofFound found }

variable (r : Reading)

theorem foldl_addEntry (entries : List Entry) :
    entries.foldl addEntry r =
      { record := entries.foldl Entry.apply r.record
        unmatched := r.unmatched + (entries.flatMap Entry.unmatched).length
        unknown := r.unknown + (entries.flatMap Entry.unknownTypes).length
        remarks := r.remarks ++ entries.flatMap Entry.remarks } := by
  induction entries generalizing r with
  | nil => simp
  | cons e entries ih =>
      rw [List.foldl_cons, ih]
      simp [addEntry, Nat.add_assoc]

theorem addEntry_of_quiet {e : Entry} (h : e.Quiet) :
    r.addEntry e = { r with record := e.apply r.record } := by
  unfold addEntry
  rw [h.unmatched, h.unknown, h.remarks, List.append_nil]
  rfl

theorem foldl_addExtra (entries : List Extra) (x : Extras) :
    entries.foldl addExtra { r with record := { r.record with extras := some x } } =
      { r with
        record := { r.record with extras := some (entries.foldl Extra.apply x) }
        unknown := r.unknown + (entries.flatMap Extra.unknownTypes).length
        remarks := r.remarks ++ entries.flatMap Extra.remarks } := by
  induction entries generalizing r x with
  | nil => simp
  | cons e entries ih =>
      rw [List.foldl_cons]
      have hnext := ih
        { r with
          unknown := r.unknown + e.unknownTypes.length
          remarks := r.remarks ++ e.remarks } (Extra.apply x e)
      refine hnext.trans ?_
      simp [Nat.add_assoc]

theorem foldl_addScan (remark : Bytes → Remark) (scans : List Scan) :
    scans.foldl (addScan remark) r =
      { r with
        record := scans.foldl Record.addScan r.record
        unmatched := r.unmatched + (scans.flatMap Scan.unmatched).length
        remarks := r.remarks ++ (scans.flatMap Scan.unmatched).map remark } := by
  induction scans generalizing r with
  | nil => simp
  | cons s scans ih =>
      rw [List.foldl_cons, ih]
      simp [addScan, Nat.add_assoc]

/-- The extras of a record are begun by their first block. -/
theorem addEntry_extras (entries : List Extra) :
    r.addEntry (.extras entries) =
      entries.foldl addExtra
        { r with record := { r.record with extras := some (r.record.extras.getD {}) } } := by
  rw [foldl_addExtra]
  rfl

theorem ofBlock_eq (cat : Catalogue) (handle : String) (warningLevel : UInt16)
    (found : List Tlv.Found) :
    ofBlock cat handle warningLevel found =
      let r := ((Chain.ofFound found).map (Entry.ofTlv cat)).foldl addEntry
        ⟨{ handle, warningLevel }, 0, 0, Remark.ofFound found⟩
      { r with remarks := r.remarks ++ [.blockRead handle found.length r.unknown] } := by
  dsimp only
  rw [foldl_addEntry]
  simp [ofBlock]

theorem addTrailer_eq (cat : Catalogue) (found : List Tlv.Found) :
    r.addTrailer cat found =
      let entries := Chain.ofFound found
      let blocks := Chain.ofType entries TrailerType.capabilities.code
      let r := (blocks.map fun t => cat.scan t.value).foldl (addScan .unmatched) (r.addTexts found)
      { r with
        unknown := r.unknown +
          (entries.filter fun t => (TrailerType.ofCode? t.type).isNone).length } := by
  dsimp only
  rw [foldl_addScan]
  have hunknown : (Trailer.ofChain cat (Chain.ofFound found)).unknownTypes.length =
      ((Chain.ofFound found).filter fun t => (TrailerType.ofCode? t.type).isNone).length := by
    unfold Trailer.ofChain
    dsimp only
    rw [List.filter_map, List.length_map]
    rfl
  unfold addTrailer
  dsimp only
  rw [hunknown]
  rfl

end Reading

/-! ### How much is counted -/

theorem Bytes.length_piecesAfter (width count : Nat) (bytes : Bytes) (done : List Bytes) :
    (piecesAfter width count bytes done).length = done.length + count := by
  induction count generalizing bytes done with
  | zero => simp [piecesAfter]
  | succ count ih =>
      rw [piecesAfter, ih, List.length_cons]
      omega

theorem Bytes.length_pieces_le (width : Nat) (bytes : Bytes) :
    (pieces width bytes).length ≤ bytes.length := by
  unfold pieces
  rw [length_piecesAfter, List.length_nil, Nat.zero_add]
  exact Nat.div_le_self _ _

namespace Catalogue

theorem length_unmatched_scan_le (cat : Catalogue) (block : Bytes) :
    (cat.scan block).unmatched.length ≤ block.length :=
  Nat.le_trans (List.length_filter_le _ _) <|
    Nat.le_trans (List.length_filter_le _ _) (Bytes.length_pieces_le _ block)

theorem length_unmatched_scanShort_le (cat : Catalogue) (block : Bytes) :
    (cat.scanShort block).unmatched.length ≤ block.length :=
  Nat.le_trans (List.length_filter_le _ _) (Bytes.length_pieces_le _ block)

end Catalogue

namespace ExtraEntry

theorem length_of_split? {bytes rest : Bytes} {entry : ExtraEntry}
    (h : split? bytes = some (entry, rest)) :
    4 + entry.body.length + rest.length = bytes.length := by
  unfold split? at h
  split at h
  · obtain ⟨rfl, rfl⟩ := Prod.mk.inj (Option.some.inj h)
    simp only [List.length_take, List.length_drop, List.length_cons]
    omega
  · cases h

theorem splitAfter_eq (count : Nat) (done : List ExtraEntry) (bytes : Bytes) :
    splitAfter count done bytes = done.reverse ++ splitAfter count [] bytes := by
  induction count generalizing done bytes with
  | zero => simp [splitAfter]
  | succ count ih =>
      unfold splitAfter
      split
      · simp
      · rename_i entry rest _
        rw [ih (entry :: done), ih [entry]]
        simp

theorem length_splitAfter_le (count : Nat) (bytes : Bytes) :
    (splitAfter count [] bytes).length ≤ count := by
  induction count generalizing bytes with
  | zero => simp [splitAfter]
  | succ count ih =>
      unfold splitAfter
      split
      · simp
      · rename_i entry rest _
        rw [splitAfter_eq, List.length_append]
        have hrest := ih rest
        simp only [List.length_reverse, List.length_singleton]
        omega

end ExtraEntry

namespace Extra

theorem length_unknownTypes_le (e : Extra) : e.unknownTypes.length ≤ 1 := by
  cases e <;> simp [unknownTypes]

theorem length_flatMap_unknownTypes_le (entries : List Extra) :
    (entries.flatMap unknownTypes).length ≤ entries.length := by
  induction entries with
  | nil => exact Nat.le_refl _
  | cons e entries ih =>
      have hone := e.length_unknownTypes_le
      rw [List.flatMap_cons, List.length_append, List.length_cons]
      omega

theorem length_ofBlock_le (cat : Catalogue) (block : Bytes) :
    (ofBlock cat block).length ≤ block.length := by
  unfold ofBlock
  rw [List.length_map]
  exact ExtraEntry.length_splitAfter_le block.length block

end Extra

namespace Entry

/-- Whether an entry counts for at most so many identifiers and unknown fields. -/
structure CountsAtMost (most : Nat) (e : Entry) : Prop where
  unmatched : e.unmatched.length ≤ most
  unknown : e.unknownTypes.length ≤ most

theorem Quiet.countsAtMost {e : Entry} (h : e.Quiet) (most : Nat) : CountsAtMost most e :=
  ⟨by rw [h.unmatched]; exact Nat.zero_le _, by rw [h.unknown]; exact Nat.zero_le _⟩

theorem countsAtMost_ofTlv (cat : Catalogue) (t : Tlv) :
    CountsAtMost (Tlv.headerSize + t.value.length) (ofTlv cat t) := by
  have hwithin : t.value.length ≤ Tlv.headerSize + t.value.length := Nat.le_add_left _ _
  unfold ofTlv
  split
  case h_10 => exact ⟨Nat.le_trans (cat.length_unmatched_scan_le t.value) hwithin, Nat.zero_le _⟩
  case h_11 =>
    exact ⟨Nat.le_trans (cat.length_unmatched_scanShort_le t.value) hwithin, Nat.zero_le _⟩
  case h_12 =>
    refine ⟨Nat.zero_le _, ?_⟩
    have hentries := Extra.length_flatMap_unknownTypes_le (Extra.ofBlock cat t.value)
    exact Nat.le_trans hentries (Nat.le_trans (Extra.length_ofBlock_le cat t.value) hwithin)
  case h_13 =>
    have hone : 1 ≤ Tlv.headerSize := by decide
    exact ⟨Nat.zero_le _, Nat.le_trans hone (Nat.le_add_right _ _)⟩
  all_goals first
    | exact (holds_ofWord16 quiet_void t fun _ => ⟨rfl, rfl, rfl⟩).countsAtMost _
    | exact (holds_ofWord32 quiet_void t fun _ => ⟨rfl, rfl, rfl⟩).countsAtMost _

theorem length_flatMap_ofTlv_le {α : Type} {counted : Entry → List α} (cat : Catalogue)
    (h : ∀ t, (counted (ofTlv cat t)).length ≤ Tlv.headerSize + t.value.length)
    (found : List Tlv.Found) :
    (((Chain.ofFound found).map (ofTlv cat)).flatMap counted).length ≤ Chain.foundSize found := by
  induction found with
  | nil => exact Nat.le_refl _
  | cons f found ih =>
      have hcons : Chain.foundSize (f :: found) =
          Tlv.headerSize + f.value.length + Chain.foundSize found := rfl
      have hfirst := h f.toTlv
      rw [hcons, Chain.ofFound, List.map_cons, List.map_cons, List.flatMap_cons, List.length_append]
      exact Nat.add_le_add hfirst ih

end Entry

namespace Reading

variable (cat : Catalogue) (handle : String) (warningLevel : UInt16) (found : List Tlv.Found)

theorem unmatched_ofBlock_le :
    (ofBlock cat handle warningLevel found).unmatched ≤ Chain.foundSize found :=
  Entry.length_flatMap_ofTlv_le cat (fun t => (Entry.countsAtMost_ofTlv cat t).unmatched) found

theorem unknown_ofBlock_le :
    (ofBlock cat handle warningLevel found).unknown ≤ Chain.foundSize found :=
  Entry.length_flatMap_ofTlv_le cat (fun t => (Entry.countsAtMost_ofTlv cat t).unknown) found

end Reading

/-- The octets of a chain that was read lie in front of the position. -/
theorem Cursor.foundSize_le_position (c : Cursor) (count room : Nat) :
    Chain.foundSize (Chain.splitCounted count room c.unread).1 ≤
      (c.leaving (Chain.splitCounted count room c.unread).2.length).position := by
  have hsplit := Chain.foundSize_splitAfter count room [] c.unread
  have hunread : c.unread.length ≤ c.buffer.length := by
    unfold unread
    rw [List.length_drop]
    exact Nat.sub_le _ _
  have hposition : (c.leaving (Chain.splitCounted count room c.unread).2.length).position =
      min (c.buffer.length - (Chain.splitCounted count room c.unread).2.length) c.buffer.length :=
    rfl
  have hnil : Chain.foundSize [] = 0 := rfl
  unfold Chain.splitCounted at *
  omega

/-- **A block counts no more than the octets in front of its end.** -/
theorem Record.counts_of_readBlock {cat : Catalogue} {r : Reading} {c c' : Cursor}
    (h : Record.readBlock cat c = .ok r c') : r.unmatched ≤ c'.position ∧ r.unknown ≤ c'.position := by
  obtain ⟨handle, c₁, -, h⟩ := Reader.bind_inv h
  obtain ⟨level, c₂, -, h⟩ := Reader.bind_inv h
  obtain ⟨count, c₃, -, h⟩ := Reader.bind_inv h
  obtain ⟨found, c₄, hfound, h⟩ := Reader.bind_inv h
  obtain ⟨rfl, rfl⟩ := Reader.pure_inv h
  obtain ⟨rfl, rfl⟩ := Reader.parse_inv hfound
  have hsize := c₃.foundSize_le_position count.toNat c₃.unread.length
  exact ⟨Nat.le_trans (Reading.unmatched_ofBlock_le cat _ level _) hsize,
    Nat.le_trans (Reading.unknown_ofBlock_le cat _ level _) hsize⟩

end Whereabouts
