import Whereabouts.Proofs.Checked.Writes
import Whereabouts.Proofs.FieldByField

/-! # Lengths that are what they say

Lengths and counts stand at six levels of a record on the wire: in front of the handle, of the
entries of the block, of the value of an entry, of the body of one of the extras, and of the text and
the name of its encoding inside of that body.  A frame holds the parts of a string together with
these numbers, and it is exact if each number is that of the octets or entries that follow it.

What is written is exact at every level (`Text.exact_frame`, `Extras.framed_encode`,
`Record.exact_frame`), as each level is cut before its length is taken.  So no length is ever
narrowed beyond its octet or word, and no room is less than nothing: the checked writers put the
frames, without a trap, whatever they are given (`Checked.writes_exact`). -/

namespace Whereabouts

theorem Bytes.toNat_length_take (bytes : Bytes) :
    (UInt8.ofNat (bytes.take 255).length).toNat = (bytes.take 255).length := by
  have hlength : (bytes.take 255).length ≤ 255 := List.length_take_le _ _
  rw [UInt8.toNat_ofNat']
  omega

/-! ### Entries and chains -/

/-- Whether an entry declares the length that its value has. -/
def Tlv.Found.Exact (f : Tlv.Found) : Prop := f.declared.toNat = f.value.length

theorem Tlv.exact_asFound (t : Tlv) : t.asFound.Exact :=
  Bytes.word16_toNat_ofNat (Nat.lt_succ_of_le t.length_written_le)

/-- The entries of a chain as they are written. -/
def Chain.frames (chain : Chain) : List Tlv.Found := chain.map Tlv.asFound

theorem Chain.encode_eq (chain : Chain) : encode chain = chain.frames.flatMap Tlv.Found.bytes := by
  rw [encode, frames, List.flatMap_map]
  rfl

theorem Chain.exact_frames {chain : Chain} {f : Tlv.Found} (h : f ∈ chain.frames) : f.Exact := by
  obtain ⟨t, -, rfl⟩ := List.mem_map.mp h
  exact t.exact_asFound

/-! ### Texts among the extras -/

/-- The parts of the body of a text. -/
structure TextFrame where
  length : UInt16
  text : Bytes
  /-- The name of the encoding behind its length. -/
  name : Option (UInt16 × Bytes)

namespace TextFrame

/-- The body on the wire. -/
def bytes (f : TextFrame) : Bytes :=
  Bytes.ofWord16 f.length ++ f.text ++
    match f.name with
    | none => Bytes.ofWord16 0
    | some (length, name) =>
        Bytes.ofWord16 Text.hasEncoding ++ Bytes.ofWord16 0 ++ Bytes.ofWord16 length ++ name

/-- Whether the lengths are those of text and name. -/
structure Exact (f : TextFrame) : Prop where
  text : f.length.toNat = f.text.length
  name : ∀ part ∈ f.name, part.1.toNat = part.2.length

end TextFrame

namespace Text

/-- A text as it is written. -/
def frame (t : Text) : TextFrame where
  length := .ofNat t.writtenBytes.length
  text := t.writtenBytes
  name := t.writtenEncoding.map fun name => (.ofNat name.length, name)

theorem bytes_frame (t : Text) : t.frame.bytes = t.toBody := by
  unfold TextFrame.bytes frame toBody
  cases t.writtenEncoding <;> rfl

theorem exact_frame (t : Text) : t.frame.Exact where
  text := Bytes.word16_toNat_ofNat (by have := t.length_writtenBytes_le; omega)
  name := by
    intro part h
    obtain ⟨name, hname, rfl⟩ := Option.map_eq_some_iff.mp h
    have hlength := length_writtenEncoding_le hname
    exact Bytes.word16_toNat_ofNat (by omega)

end Text

/-! ### Extras -/

namespace ExtraEntry

/-- Whether an entry declares the length that its body has, and a text in it is exact in turn. -/
structure Exact (e : ExtraEntry) : Prop where
  body : e.declared.toNat = e.body.length
  text : e.type = ExtraType.statusText.code ∨ e.type = ExtraType.externalLink.code →
    ∃ f : TextFrame, e.body = f.bytes ∧ f.Exact

theorem exact_ofWritten {type : ExtraType} {number : UInt8} {body : Bytes}
    (h : type ≠ .statusText ∧ type ≠ .externalLink) : (ofWritten type number body).Exact where
  body := declared_ofWritten type number body
  text := by
    rintro (htype | htype)
    · exact absurd (ExtraType.code_inj.mp htype) h.1
    · exact absurd (ExtraType.code_inj.mp htype) h.2

/-- The body of a text fits its entry, so that it is not cut again. -/
theorem exact_ofWritten_toBody (type : ExtraType) (number : UInt8) (t : Text) :
    (ofWritten type number t.toBody).Exact where
  body := declared_ofWritten type number t.toBody
  text := by
    intro _
    refine ⟨t.frame, ?_, t.exact_frame⟩
    rw [ofWritten_of_le t.length_toBody_le, t.bytes_frame]

end ExtraEntry

/-- Whether a block of extras is a run of exact entries. -/
def Extras.Framed (block : Bytes) : Prop :=
  ∃ entries : List ExtraEntry, block = entries.flatMap ExtraEntry.bytes ∧
    ∀ e ∈ entries, e.Exact

theorem Extras.framed_encode (cat : Catalogue) (x : Extras) : Framed (x.encode cat) := by
  refine ⟨x.writtenEntries cat, x.encode_eq cat, fun e he => ?_⟩
  unfold writtenEntries at he
  rw [List.mem_filterMap] at he
  obtain ⟨o, ho, rfl⟩ := he
  simp only [List.mem_cons, List.not_mem_nil, or_false] at ho
  rcases ho with ho | ho | ho | ho <;> obtain ⟨_, -, rfl⟩ := Option.map_eq_some_iff.mp ho.symm
  · exact ExtraEntry.exact_ofWritten ⟨nofun, nofun⟩
  · exact ExtraEntry.exact_ofWritten_toBody _ _ _
  · exact ExtraEntry.exact_ofWritten_toBody _ _ _
  · exact ExtraEntry.exact_ofWritten ⟨nofun, nofun⟩

/-! ### Records -/

/-- The parts of a record on the wire. -/
structure RecordFrame where
  handleLength : UInt8
  handle : Bytes
  warningLevel : UInt16
  count : UInt16
  block : List Tlv.Found
  trailer : List Tlv.Found

namespace RecordFrame

/-- The record on the wire. -/
def bytes (f : RecordFrame) : Bytes :=
  f.handleLength :: f.handle ++ Bytes.ofWord16 f.warningLevel ++ Bytes.ofWord16 f.count ++
    f.block.flatMap Tlv.Found.bytes ++ f.trailer.flatMap Tlv.Found.bytes

/-- Whether all lengths and the count are those of what follows them. -/
structure Exact (f : RecordFrame) : Prop where
  handle : f.handleLength.toNat = f.handle.length
  count : f.count.toNat = f.block.length
  block : ∀ t ∈ f.block, t.Exact
  extras : ∀ t ∈ f.block, t.type = EntryType.extras.code → Extras.Framed t.value
  trailer : ∀ t ∈ f.trailer, t.Exact

end RecordFrame

namespace Record

variable (cat : Catalogue) (aol : Bool) (r : Record)

/-- A record as it is written. -/
def frame : RecordFrame where
  handleLength := .ofNat ((Utf8.encode r.handle).take 255).length
  handle := (Utf8.encode r.handle).take 255
  warningLevel := r.warningLevel
  count := .ofNat (r.blockChain cat aol).length
  block := (r.blockChain cat aol).frames
  trailer := (Trailer.texts r.profile r.awayMessage).frames

theorem bytes_frame : (r.frame cat aol).bytes = r.encode cat aol := by
  simp only [encode, Chain.encode_eq]
  rfl

variable {cat aol r}

/-- The entry with the extras is the only one of its type. -/
theorem extras_of_mem_blockChain {t : Tlv} (ht : t ∈ r.blockChain cat aol) :
    (∃ x ∈ r.extras, t = ⟨EntryType.extras.code, x.encode cat⟩) ∨
      ∃ type : EntryType, type ≠ .extras ∧ t.type = type.code := by
  unfold blockChain at ht
  rw [List.mem_filterMap] at ht
  obtain ⟨o, ho, e⟩ := ht
  simp only [List.mem_cons, List.not_mem_nil, or_false] at ho
  rcases ho with rfl | rfl | rfl | rfl | rfl | rfl | rfl | rfl | rfl | rfl <;>
    obtain ⟨x, hx, rfl⟩ := Option.map_eq_some_iff.mp e
  · exact .inr ⟨.userClass, nofun, rfl⟩
  · exact .inr ⟨.createdAt, nofun, rfl⟩
  · exact .inr ⟨.onlineSince, nofun, rfl⟩
  · exact .inr ⟨.idleMinutes, nofun, rfl⟩
  · exact .inr ⟨.memberSince, nofun, rfl⟩
  · exact .inr ⟨.icqStatus, nofun, rfl⟩
  · exact .inr ⟨.externalIp, nofun, rfl⟩
  · exact .inr ⟨.capabilities, nofun, rfl⟩
  · exact .inr ⟨if aol then .sessionLengthAol else .sessionLength, by cases aol <;> nofun, rfl⟩
  · exact .inl ⟨x, hx, rfl⟩

theorem framed_of_mem_blockChain {t : Tlv} (ht : t ∈ r.blockChain cat aol)
    (htype : t.type = EntryType.extras.code) : Extras.Framed t.value := by
  obtain ⟨x, -, rfl⟩ | ⟨type, hne, hcode⟩ := extras_of_mem_blockChain ht
  · exact x.framed_encode cat
  · exact absurd (EntryType.code_inj.mp (hcode.symm.trans htype)) hne

/-- **All lengths of a written record are exact.** -/
theorem exact_frame : (r.frame cat aol).Exact where
  handle := Bytes.toNat_length_take (Utf8.encode r.handle)
  count := by
    have hcount := length_blockChain_le cat aol r
    show (UInt16.ofNat _).toNat = ((r.blockChain cat aol).map Tlv.asFound).length
    rw [List.length_map]
    exact Bytes.word16_toNat_ofNat (by omega)
  block := fun _ => Chain.exact_frames
  extras := by
    intro f hf htype
    obtain ⟨t, ht, rfl⟩ := List.mem_map.mp hf
    have hwhole : t.asFound.value = t.value :=
      List.take_of_length_le (length_value_le_of_mem_blockChain ht)
    rw [hwhole]
    exact framed_of_mem_blockChain ht htype
  trailer := fun _ => Chain.exact_frames

end Record

/-! ### Writing -/

/-- **What is written is exact, and writing never traps.**  Whatever a record, an announcement and
a catalogue hold, every narrowed number fits, no difference is below zero and no octets are taken
from outside a string; what is put behind the buffer is what the library writes, and every length
and count in it is that of what follows.  The same is true of any chain, any string behind its
length octet and any body of a text. -/
theorem Checked.writes_exact :
    (∀ (cat : Catalogue) (aol : Bool) (r : Record),
      Puts (putRecord cat aol r) (r.encode cat aol) ∧
        r.encode cat aol = (r.frame cat aol).bytes ∧ (r.frame cat aol).Exact) ∧
    (∀ (cat : Catalogue) (a : Announcement),
      Puts (putAnnouncement cat a) (a.encode cat) ∧
        a.encode cat = (a.toChain cat).frames.flatMap Tlv.Found.bytes ∧
        ∀ f ∈ (a.toChain cat).frames, f.Exact) ∧
    (∀ chain : Chain,
      Puts (putChain chain) (Chain.encode chain) ∧
        Chain.encode chain = chain.frames.flatMap Tlv.Found.bytes ∧
        ∀ f ∈ chain.frames, f.Exact) ∧
    (∀ (cat : Catalogue) (x : Extras),
      Puts (putExtras cat x) (x.encode cat) ∧ Extras.Framed (x.encode cat)) ∧
    (∀ t : Text, Gives (body t) t.toBody ∧ t.toBody = t.frame.bytes ∧ t.frame.Exact) ∧
    ∀ bytes : Bytes, ∃ length : UInt8,
      Puts (putCounted bytes) (length :: bytes.take 255) ∧
        length.toNat = (bytes.take 255).length := by
  refine ⟨fun cat aol r => ⟨puts_record cat aol r, (r.bytes_frame cat aol).symm, r.exact_frame⟩,
    fun cat a => ⟨puts_announcement cat a, (a.toChain cat).encode_eq, fun _ => Chain.exact_frames⟩,
    fun chain => ⟨puts_chain chain, chain.encode_eq, fun _ => Chain.exact_frames⟩,
    fun cat x => ⟨puts_extras cat x, x.framed_encode cat⟩,
    fun t => ⟨gives_body t, t.bytes_frame.symm, t.exact_frame⟩,
    fun bytes => ⟨_, puts_counted bytes, bytes.toNat_length_take⟩⟩

end Whereabouts
