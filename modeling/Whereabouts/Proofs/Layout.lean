import Whereabouts.Proofs.Chain
import Whereabouts.Proofs.Cursor
import Whereabouts.Record.Codec

/-! # The layout of a record

A record on the wire is a front, the entries that the front counts, and a trailer up to the end.
Behind a front anything can be read (`Record.readBlock_of_front`), and so it can behind a block
(`Record.read_of_readBlock`).

If the entries are whole, reading finds the parts again (`read_of_unread`), and what it makes of
them is a matter of the entries alone: `record_reading`, `unmatched_reading` and
`unknown_reading` say it part by part. -/

namespace Whereabouts

/-! ### The front and what it counts -/

namespace Record

/-- The octets in front of the entries of a record. -/
def front (handle : Bytes) (warningLevel count : UInt16) : Bytes :=
  Bytes.counted handle ++ Bytes.ofWord16 warningLevel ++ Bytes.ofWord16 count

variable (cat : Catalogue) {handle body : Bytes} {warningLevel count : UInt16} {c : Cursor}

/-- Behind a front a block is always read, whatever its octets are. -/
theorem readBlock_of_front (hc : c.unread = front handle warningLevel count ++ body) :
    ∃ c', readBlock cat c = .ok (.ofBlock cat (Utf8.decodeLossy (handle.take Bytes.countedLimit))
        warningLevel (Chain.splitCounted count.toNat body.length body).1) c' ∧
      c'.unread = (Chain.splitCounted count.toNat body.length body).2 ∧ c'.buffer = c.buffer := by
  unfold front at hc
  rw [List.append_assoc, List.append_assoc] at hc
  obtain ⟨c₁, readHandle, left₁, same₁⟩ := Reader.counted_of_unread hc
  obtain ⟨readLevel, left₂⟩ := Reader.word16_of_unread left₁
  obtain ⟨readCount, left₃⟩ := Reader.word16_of_unread left₂
  obtain ⟨taken, hbody⟩ := Chain.suffix_splitAfter count.toNat body.length [] body
  obtain ⟨c₄, readEntries, left₄, same₄⟩ := Reader.parse_of_unread
    (fun bytes => Chain.splitCounted count.toNat bytes.length bytes) (left₃.trans hbody.symm)
    (by rw [hbody]; rfl)
  refine ⟨c₄, ?_, left₄, same₄.trans same₁⟩
  unfold readBlock
  rw [Reader.bind_ok readHandle, Reader.bind_ok readLevel, Reader.bind_ok readCount,
    Reader.bind_ok readEntries]
  rfl

end Record

/-! ### What stands behind the block -/

theorem Record.foldl_addScan (scans : List Scan) (r : Record) :
    scans.foldl addScan r = { r with advertised := (scans.foldl addScan r).advertised } := by
  induction scans generalizing r with
  | nil => rfl
  | cons scan scans ih => exact ih (r.addScan scan)

theorem Reading.addTrailer_nil (cat : Catalogue) (r : Reading) : r.addTrailer cat [] = r := by
  show { r with remarks := r.remarks ++ [] ++ [] } = r
  rw [List.append_nil, List.append_nil]

/-- Behind a block a trailer is always read, whatever its octets are. -/
theorem Record.read_of_readBlock {cat : Catalogue} {block : Reading} {c c₁ : Cursor}
    (h : readBlock cat c = .ok block c₁) :
    ∃ c', read cat c =
        .ok (block.addTrailer cat (Chain.split c₁.unread.length c₁.unread).1) c' ∧
      c'.unread = (Chain.split c₁.unread.length c₁.unread).2 ∧ c'.buffer = c₁.buffer := by
  unfold read
  rw [Reader.bind_ok h, Reader.bind_ok (Reader.get_apply c₁)]
  split_ifs with hend
  · have hnil : c₁.unread = [] := (Cursor.remaining_eq_zero_iff c₁).mp hend
    rw [hnil]
    exact ⟨c₁, congrArg (EStateM.Result.ok · c₁) (Reading.addTrailer_nil cat block).symm, hnil, rfl⟩
  · obtain ⟨taken, hunread⟩ := Chain.suffix_splitAfter c₁.unread.length c₁.unread.length [] c₁.unread
    obtain ⟨c', readTrailer, left, same⟩ := Reader.parse_of_unread
      (fun bytes => Chain.split bytes.length bytes) hunread.symm (by rw [hunread]; rfl)
    exact ⟨c', Reader.bind_ok readTrailer, left, same⟩

/-! ### Records of whole entries -/

/-- The parts of a record on the wire. -/
structure Layout where
  handle : Bytes
  warningLevel : UInt16
  /-- The entries that the front counts. -/
  block : Chain
  /-- The entries behind them, up to the end. -/
  trailer : Chain

namespace Layout

/-- The octets up to the trailer. -/
def front (l : Layout) : Bytes :=
  Bytes.counted l.handle ++ Bytes.ofWord16 l.warningLevel ++
    Bytes.ofWord16 (UInt16.ofNat l.block.length) ++ Chain.encode l.block

/-- The octets of a record.  Writing cuts what a length cannot announce, so its entries are
complete whatever they hold. -/
def bytes (l : Layout) : Bytes := l.front ++ Chain.encode l.trailer

/-- What is read of the front and the counted entries. -/
def blockReading (cat : Catalogue) (l : Layout) : Reading :=
  .ofBlock cat (Utf8.decodeLossy (l.handle.take Bytes.countedLimit)) l.warningLevel
    (l.block.map Tlv.asFound)

/-- What is read of a record. -/
def reading (cat : Catalogue) (l : Layout) : Reading :=
  if l.trailer = [] then l.blockReading cat
  else (l.blockReading cat).addTrailer cat (l.trailer.map Tlv.asFound)

/-! ### Finding the parts -/

variable (cat : Catalogue) {l : Layout} {c : Cursor}

theorem readBlock_of_unread {rest : Bytes} (hcount : l.block.length ≤ 65535)
    (hc : c.unread = l.front ++ rest) :
    ∃ c', Record.readBlock cat c = .ok (l.blockReading cat) c' ∧ c'.unread = rest ∧
      c'.buffer = c.buffer := by
  have hnumber : (UInt16.ofNat l.block.length).toNat = l.block.length :=
    Bytes.word16_toNat_ofNat (Nat.lt_succ_of_le hcount)
  have hroom : Chain.encodedLength l.block ≤ (Chain.encode l.block ++ rest).length := by
    rw [List.length_append, Chain.length_encode]
    omega
  unfold front at hc
  rw [List.append_assoc] at hc
  obtain ⟨c', read, left, same⟩ := Record.readBlock_of_front cat hc
  rw [hnumber, Chain.splitCounted_encode l.block rest hroom] at read left
  exact ⟨c', read, left, same⟩

/-- A trailer without entries adds nothing, so it need not be told apart. -/
theorem reading_eq (l : Layout) :
    l.reading cat = (l.blockReading cat).addTrailer cat (l.trailer.map Tlv.asFound) := by
  unfold reading
  split_ifs with htrailer
  · rw [htrailer]
    exact (Reading.addTrailer_nil cat _).symm
  · rfl

theorem read_of_unread (hcount : l.block.length ≤ 65535) (hc : c.unread = l.bytes) :
    ∃ c', Record.read cat c = .ok (l.reading cat) c' ∧ c'.remaining = 0 ∧
      c'.buffer = c.buffer := by
  obtain ⟨c₁, readBlock, left, same⟩ := readBlock_of_unread cat hcount hc
  obtain ⟨c₂, readTrailer, left₂, same₂⟩ := Record.read_of_readBlock readBlock
  rw [left, Chain.split_encode, ← reading_eq] at readTrailer
  rw [left, Chain.split_encode] at left₂
  exact ⟨c₂, readTrailer, (Cursor.remaining_eq_zero_iff c₂).mpr left₂, same₂.trans same⟩

/-! ### What the parts say -/

/-- What the counted entries say. -/
def entries (l : Layout) : List Entry := (l.block.map Tlv.cut).map (Entry.ofTlv cat)

/-- What the trailer says. -/
def said (l : Layout) : Trailer := .ofChain cat (l.trailer.map Tlv.cut)

variable (l : Layout)

theorem record_blockReading :
    (l.blockReading cat).record = (l.entries cat).foldl Entry.apply
      { handle := Utf8.decodeLossy (l.handle.take Bytes.countedLimit)
        warningLevel := l.warningLevel } := by
  unfold blockReading Reading.ofBlock
  rw [Chain.ofFound_asFound]
  rfl

theorem unmatched_blockReading :
    (l.blockReading cat).unmatched = ((l.entries cat).flatMap Entry.unmatched).length := by
  unfold blockReading Reading.ofBlock
  rw [Chain.ofFound_asFound]
  rfl

theorem unknown_blockReading :
    (l.blockReading cat).unknown = ((l.entries cat).flatMap Entry.unknownTypes).length := by
  unfold blockReading Reading.ofBlock
  rw [Chain.ofFound_asFound]
  rfl

theorem record_reading :
    (l.reading cat).record = (l.said cat).apply (l.blockReading cat).record := by
  rw [reading_eq]
  unfold Reading.addTrailer
  rw [Chain.ofFound_asFound]
  rfl

theorem unmatched_reading :
    (l.reading cat).unmatched = (l.blockReading cat).unmatched + (l.said cat).unmatched.length := by
  rw [reading_eq]
  unfold Reading.addTrailer
  rw [Chain.ofFound_asFound]
  rfl

theorem unknown_reading :
    (l.reading cat).unknown = (l.blockReading cat).unknown + (l.said cat).unknownTypes.length := by
  rw [reading_eq]
  unfold Reading.addTrailer
  rw [Chain.ofFound_asFound]
  rfl

end Layout
end Whereabouts
