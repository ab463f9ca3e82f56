import Whereabouts.Proofs.Extras
import Whereabouts.Proofs.Layout

/-! # Records on the wire and back

Writing and reading are two programs over one format.  `Record.canon` is what a record is after
a way through both: texts are cut to what their places have room for, and features and icons
that the catalogue has no row for are gone.

`ofBlock_blockChain` is about the counted block and `addTrailer_texts` about the trailer.  Every
octet is accounted for, and nothing that was written is unknown to the reader: `read_encode`. -/

namespace Whereabouts

/-- What a trailer has room for. -/
def Text.clipTrailer (t : Text) : Text :=
  ⟨t.bytes.take 65535, t.encoding.map (Utf8.clip 65535)⟩

namespace Record

/-- The record with its texts cut to what their places have room for. -/
def clip (r : Record) : Record :=
  { r with
    handle := Utf8.clip 255 r.handle
    extras := r.extras.map Extras.clip
    profile := r.profile.map Text.clipTrailer
    awayMessage := r.awayMessage.map Text.clipTrailer }

/-- What is left of a record on the wire. -/
def canon (cat : Catalogue) (r : Record) : Record :=
  { r.clip with
    advertised := r.advertised.map fun a => ⟨cat.known a.features, cat.keep a.icon⟩
    extras := r.extras.map (Extras.canon cat) }

end Record

/-- Whether a reading is of a record and understood in full. -/
structure Reading.Gives (reading : Reading) (r : Record) : Prop where
  record : reading.record = r
  unmatched : reading.unmatched = 0
  unknown : reading.unknown = 0

/-! ### The counted block -/

@[simp] theorem Tlv.word16?_ofWord16 (type v : UInt16) : (Tlv.ofWord16 type v).word16? = some v :=
  congrArg some (Bytes.word16_ofWord16 v)

@[simp] theorem Tlv.word32?_ofWord32 (type : UInt16) (v : UInt32) :
    (Tlv.ofWord32 type v).word32? = some v :=
  congrArg some (Bytes.word32_ofWord32 v)

namespace Entry

/-- The record after an entry, if there is one. -/
def applyIf (r : Record) : Option Entry → Record
  | none => r
  | some e => apply r e

theorem foldl_filterMap_apply (entries : List (Option Entry)) (r : Record) :
    (entries.filterMap id).foldl apply r = entries.foldl applyIf r := by
  induction entries generalizing r with
  | nil => rfl
  | cons e entries ih =>
      cases e with
      | none => exact ih r
      | some e => exact ih (apply r e)

section

variable {r : Record} {α : Type}

/-- An entry sets its field, and without one the field is left as it is. -/
theorem applyIf_map (entry : α → Entry) (set : Record → Option α → Record)
    (hnone : ∀ r, set r none = r) (hsome : ∀ r a, apply r (entry a) = set r (some a))
    (r : Record) (o : Option α) : applyIf r (o.map entry) = set r o := by
  cases o with
  | none => exact (hnone r).symm
  | some a => exact hsome r a

theorem applyIf_capabilities (h : r.advertised = none) (scan : α → Scan) (o : Option α) :
    applyIf r (o.map fun a => capabilities (scan a)) =
      { r with advertised := o.map fun a => ⟨(scan a).features, (scan a).icon⟩ } := by
  cases o with
  | none => rw [Option.map_none, Option.map_none, ← h]; rfl
  | some a =>
      rw [Option.map_some, Option.map_some, applyIf, apply, Record.addScan, h, Option.getD_none,
        Advertised.add, Features.none_union, Option.none_or]

theorem applyIf_extras (h : r.extras = none) (entries : α → List Extra) (o : Option α) :
    applyIf r (o.map fun x => extras (entries x)) =
      { r with extras := o.map fun x => (entries x).foldl Extra.apply {} } := by
  cases o with
  | none => rw [Option.map_none, Option.map_none, ← h]; rfl
  | some x => rw [Option.map_some, Option.map_some, applyIf, apply, h, Option.getD_none]

end

end Entry

namespace Record

variable {cat : Catalogue}

/-- What the entries of a written block say, in their order. -/
def blockEntries (cat : Catalogue) (r : Record) : List (Option Entry) :=
  [r.userClass.map .userClass, r.createdAt.map .createdAt, r.onlineSince.map .onlineSince,
    r.idleMinutes.map .idleMinutes, r.memberSince.map .memberSince, r.icqStatus.map .icqStatus,
    r.externalIp.map .externalIp,
    r.advertised.map fun a => .capabilities ⟨cat.known a.features, cat.keep a.icon, []⟩,
    r.sessionLength.map .sessionLength,
    r.extras.map fun x => .extras (Extra.ofBlock cat (x.encode cat))]

theorem map_ofTlv_blockChain (h : cat.WellFormed) (aol : Bool) (r : Record) :
    (r.blockChain cat aol).map (Entry.ofTlv cat) = (r.blockEntries cat).filterMap id := by
  have hword16 : ∀ (type : EntryType) (v : UInt16), (Tlv.ofWord16 type.code v).type = type.code :=
    fun _ _ => rfl
  have hword32 : ∀ (type : EntryType) (v : UInt32), (Tlv.ofWord32 type.code v).type = type.code :=
    fun _ _ => rfl
  unfold blockChain blockEntries
  rw [List.map_filterMap]
  cases aol <;>
    simp only [List.filterMap_cons, List.filterMap_nil, id_eq, Option.map_map, Function.comp_def,
      Entry.ofTlv, hword16, hword32, if_true, Bool.false_eq_true, if_false, EntryType.ofCode?_code,
      Entry.ofWord16, Entry.ofWord32, Tlv.word16?_ofWord16, Tlv.word32?_ofWord32,
      IcqStatus.ofWord32_toWord32, Catalogue.scan_encodeBlock h.ids_nodup]

theorem length_value_le_of_mem_blockChain {aol : Bool} {r : Record} {t : Tlv}
    (ht : t ∈ r.blockChain cat aol) : t.value.length ≤ Tlv.valueLimit := by
  have hword16 : ∀ type v, (Tlv.ofWord16 type v).value.length ≤ Tlv.valueLimit :=
    fun _ _ => (by decide : 2 ≤ 65535)
  have hword32 : ∀ type v, (Tlv.ofWord32 type v).value.length ≤ Tlv.valueLimit :=
    fun _ _ => (by decide : 4 ≤ 65535)
  have hblock : ∀ f icon, (cat.encodeBlock f icon).length ≤ Tlv.valueLimit :=
    fun f icon => (cat.length_encodeBlock_le f icon).trans (by decide)
  have hextras : ∀ x : Extras, (x.encode cat).length ≤ Tlv.valueLimit :=
    fun x => (x.length_encode_le cat).trans (by decide)
  unfold blockChain at ht
  rw [List.mem_filterMap] at ht
  obtain ⟨o, ho, e⟩ := ht
  simp only [List.mem_cons, List.not_mem_nil, or_false] at ho
  rcases ho with rfl | rfl | rfl | rfl | rfl | rfl | rfl | rfl | rfl | rfl <;>
    obtain ⟨_, -, rfl⟩ := Option.map_eq_some_iff.mp e
  all_goals first | exact hword16 _ _ | exact hword32 _ _ | exact hblock _ _ | exact hextras _

theorem map_cut_blockChain (cat : Catalogue) (aol : Bool) (r : Record) :
    (r.blockChain cat aol).map Tlv.cut = r.blockChain cat aol :=
  (List.map_congr_left fun _ ht => Tlv.cut_of_le (length_value_le_of_mem_blockChain ht)).trans
    (List.map_id _)

theorem length_blockChain_le (cat : Catalogue) (aol : Bool) (r : Record) :
    (r.blockChain cat aol).length ≤ 10 :=
  List.length_filterMap_le _ _

/-- What is read of a counted block: all but the texts of the trailer. -/
def blockCanon (cat : Catalogue) (r : Record) : Record :=
  { r.canon cat with profile := none, awayMessage := none }

theorem foldl_blockEntries (h : cat.WellFormed) (r : Record) :
    ((r.blockEntries cat).filterMap id).foldl Entry.apply
        { handle := Utf8.clip 255 r.handle, warningLevel := r.warningLevel } =
      r.blockCanon cat := by
  rw [Entry.foldl_filterMap_apply, blockEntries]
  simp only [List.foldl_cons, List.foldl_nil,
    Entry.applyIf_map .userClass (fun s o => { s with userClass := o.or s.userClass }) (fun _ => rfl)
      (fun _ _ => rfl),
    Entry.applyIf_map .createdAt (fun s o => { s with createdAt := o.or s.createdAt }) (fun _ => rfl)
      (fun _ _ => rfl),
    Entry.applyIf_map .onlineSince (fun s o => { s with onlineSince := o.or s.onlineSince }) (fun _ => rfl)
      (fun _ _ => rfl),
    Entry.applyIf_map .idleMinutes (fun s o => { s with idleMinutes := o.or s.idleMinutes }) (fun _ => rfl)
      (fun _ _ => rfl),
    Entry.applyIf_map .memberSince (fun s o => { s with memberSince := o.or s.memberSince }) (fun _ => rfl)
      (fun _ _ => rfl),
    Entry.applyIf_map .icqStatus (fun s o => { s with icqStatus := o.or s.icqStatus }) (fun _ => rfl)
      (fun _ _ => rfl),
    Entry.applyIf_map .externalIp (fun s o => { s with externalIp := o.or s.externalIp }) (fun _ => rfl)
      (fun _ _ => rfl),
    Entry.applyIf_map .sessionLength (fun s o => { s with sessionLength := o.or s.sessionLength }) (fun _ => rfl)
      (fun _ _ => rfl),
    Entry.applyIf_capabilities, Entry.applyIf_extras, Option.or_none,
    Extras.foldl_ofBlock_encode h]
  rfl

theorem understood_blockEntries (h : cat.WellFormed) {r : Record} {e : Entry}
    (he : e ∈ (r.blockEntries cat).filterMap id) : e.unmatched = [] ∧ e.unknownTypes = [] := by
  have hextras : ∀ x : Extras,
      (Extra.ofBlock cat (x.encode cat)).flatMap Extra.unknownTypes = [] := by
    intro x
    rw [Extras.ofBlock_encode h]
    cases x.iconChecksum <;> cases x.away <;> cases x.externalLink <;> cases cat.keep x.mood <;> rfl
  unfold blockEntries at he
  rw [List.mem_filterMap] at he
  obtain ⟨o, ho, e⟩ := he
  simp only [List.mem_cons, List.not_mem_nil, or_false] at ho
  rcases ho with rfl | rfl | rfl | rfl | rfl | rfl | rfl | rfl | rfl | rfl <;>
    obtain ⟨_, -, rfl⟩ := Option.map_eq_some_iff.mp e
  all_goals first | exact ⟨rfl, rfl⟩ | exact ⟨rfl, hextras _⟩

theorem ofBlock_blockChain (h : cat.WellFormed) (aol : Bool) (r : Record) :
    (Reading.ofBlock cat (Utf8.clip 255 r.handle) r.warningLevel
      ((r.blockChain cat aol).map Tlv.asFound)).Gives (r.blockCanon cat) := by
  have hentries : (Chain.ofFound ((r.blockChain cat aol).map Tlv.asFound)).map (Entry.ofTlv cat) =
      (r.blockEntries cat).filterMap id := by
    rw [Chain.ofFound_asFound, map_cut_blockChain, map_ofTlv_blockChain h]
  refine ⟨?_, ?_, ?_⟩
  · unfold Reading.ofBlock
    rw [hentries]
    exact foldl_blockEntries h r
  · unfold Reading.ofBlock
    rw [hentries]
    exact List.length_eq_zero_iff.mpr
      (List.flatMap_eq_nil_iff.mpr fun e he => (understood_blockEntries h he).1)
  · unfold Reading.ofBlock
    rw [hentries]
    exact List.length_eq_zero_iff.mpr
      (List.flatMap_eq_nil_iff.mpr fun e he => (understood_blockEntries h he).2)

/-! ### The trailer -/

/-- A text of a trailer is the last of its type, and so is its encoding. -/
theorem ofChain_texts (cat : Catalogue) (profile awayMessage : Option Text) :
    Trailer.ofChain cat ((Trailer.texts profile awayMessage).map Tlv.cut) =
      ⟨profile.map Text.clipTrailer, awayMessage.map Text.clipTrailer, [], []⟩ := by
  rcases profile with _ | ⟨bytes, _ | name⟩ <;>
    rcases awayMessage with _ | ⟨bytes', _ | name'⟩ <;> rfl

theorem addTrailer_texts {reading : Reading} {r : Record} (hr : reading.Gives (r.blockCanon cat)) :
    (reading.addTrailer cat ((Trailer.texts r.profile r.awayMessage).map Tlv.asFound)).Gives
      (r.canon cat) := by
  refine ⟨?_, ?_, ?_⟩
  · rw [Reading.addTrailer, Chain.ofFound_asFound, ofChain_texts, hr.record, Trailer.apply,
      List.foldl_nil]
    simp only [blockCanon, Option.or_none]
    rfl
  · unfold Reading.addTrailer
    rw [Chain.ofFound_asFound, ofChain_texts, hr.unmatched]
    rfl
  · unfold Reading.addTrailer
    rw [Chain.ofFound_asFound, ofChain_texts, hr.unknown]
    rfl

/-- A record without texts has no trailer, so the counted block is all there is. -/
theorem blockCanon_of_texts_eq_nil {r : Record}
    (h : Trailer.texts r.profile r.awayMessage = []) : r.blockCanon cat = r.canon cat := by
  have hchain := ofChain_texts cat r.profile r.awayMessage
  rw [h, List.map_nil] at hchain
  have hprofile : r.profile.map Text.clipTrailer = none := (Trailer.mk.inj hchain).1.symm
  have haway : r.awayMessage.map Text.clipTrailer = none := (Trailer.mk.inj hchain).2.1.symm
  simp only [blockCanon, canon, clip, hprofile, haway]

/-! ### The whole record -/

/-- The parts of a record that is written. -/
def layout (cat : Catalogue) (aol : Bool) (r : Record) : Layout where
  handle := Utf8.encode r.handle
  warningLevel := r.warningLevel
  block := r.blockChain cat aol
  trailer := Trailer.texts r.profile r.awayMessage

theorem gives_layout (h : cat.WellFormed) (aol : Bool) (r : Record) :
    ((r.layout cat aol).reading cat).Gives (r.canon cat) := by
  unfold Layout.reading
  split_ifs with htrailer
  · rw [← blockCanon_of_texts_eq_nil htrailer]
    exact ofBlock_blockChain h aol r
  · exact addTrailer_texts (ofBlock_blockChain h aol r)

theorem read_of_unread (h : cat.WellFormed) (aol : Bool) (r : Record) {c : Cursor}
    (hc : c.unread = r.encode cat aol) :
    ∃ reading c', read cat c = .ok reading c' ∧ c'.remaining = 0 ∧ c'.buffer = c.buffer ∧
      reading.Gives (r.canon cat) := by
  have hcount : (r.layout cat aol).block.length ≤ 65535 :=
    (length_blockChain_le cat aol r).trans (by decide)
  have hlayout : c.unread = (r.layout cat aol).bytes := hc
  obtain ⟨c', hread, hend, same⟩ := Layout.read_of_unread cat hcount hlayout
  exact ⟨_, c', hread, hend, same, gives_layout h aol r⟩

/-- **A record that was written is read back**, up to what its places have room for and the
catalogue has rows for.  The standard catalogue is among those that this is true of. -/
theorem read_encode :
    Catalogue.standard.WellFormed ∧
    ∀ cat : Catalogue, cat.WellFormed → ∀ (r : Record) (aol : Bool),
      ∃ reading c, read cat (.ofBytes (r.encode cat aol)) = .ok reading c ∧
        c.buffer = r.encode cat aol ∧ c.remaining = 0 ∧
        reading.unmatched = 0 ∧ reading.unknown = 0 ∧ reading.record = r.canon cat := by
  refine ⟨Catalogue.standard_wellFormed, fun cat h r aol => ?_⟩
  obtain ⟨reading, c, hread, hend, same, gives⟩ :=
    read_of_unread h aol r (Cursor.unread_ofBytes _)
  exact ⟨reading, c, hread, same, hend, gives.unmatched, gives.unknown, gives.record⟩

/-- A record with a feature that has no row and an away text that no entry has room for. -/
def overfull : Record where
  handle := "Ann"
  warningLevel := 7
  advertised := some ⟨⟨0x80000008⟩, some ⟨3, by decide⟩⟩
  extras := some { away := some ⟨List.replicate 300 97, none⟩, mood := some ⟨24, by decide⟩ }

theorem read_encode_overfull :
    ∃ reading c, read .standard (.ofBytes (overfull.encode .standard true)) = .ok reading c ∧
      c.remaining = 0 ∧
      reading.record =
        { overfull with
          advertised := some ⟨⟨8⟩, some ⟨3, by decide⟩⟩
          extras := some
            { away := some ⟨List.replicate 251 97, none⟩, mood := some ⟨24, by decide⟩ } } := by
  obtain ⟨hstandard, hread⟩ := read_encode
  obtain ⟨reading, c, hread, -, hend, -, -, hrecord⟩ := hread .standard hstandard overfull true
  exact ⟨reading, c, hread, hend, hrecord.trans (by decide +kernel)⟩

end Record
end Whereabouts
