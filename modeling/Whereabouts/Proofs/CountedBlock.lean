import Whereabouts.Proofs.FieldByField
import Whereabouts.Proofs.Layout

/-! # Reading a counted block

Behind its front a counted block may be any octets.  What is read of it is what its entries say,
field by field, and how many of them could not be understood (`Record.readBlock_said`).  As each
field looks at its own entries only, these may stand between the others in any way.

The values of entries with extras are split once more.  `Record.read_extras` says how any octets fall
into sub-entries and what these say. -/

namespace Whereabouts

/-! ### What is counted -/

namespace Tlv

/-- Whether an entry of the counted block is of none of the known types. -/
def isUnknown (t : Tlv) : Bool := t.type ∉ EntryType.all.map EntryType.code

end Tlv

namespace Catalogue

variable (cat : Catalogue) (block : Bytes)

theorem length_unmatched_scan :
    (cat.scan block).unmatched.length = (Bytes.pieces Identifier.width block).countP cat.isMiss := by
  unfold scan isMiss
  dsimp only
  rw [List.filter_filter, ← List.countP_eq_length_filter]
  simp only [Bool.and_comm]

theorem length_unmatched_scanShort :
    (cat.scanShort block).unmatched.length =
      (Bytes.pieces Identifier.shortWidth block).countP cat.isShortMiss :=
  List.countP_eq_length_filter.symm

end Catalogue

namespace Entry

variable (cat : Catalogue)

theorem length_unmatched_ofTlv (t : Tlv) :
    (ofTlv cat t).unmatched.length =
      (if t.type = EntryType.capabilities.code then
        (Bytes.pieces Identifier.width t.value).countP cat.isMiss else 0) +
      if t.type = EntryType.shortCapabilities.code then
        (Bytes.pieces Identifier.shortWidth t.value).countP cat.isShortMiss else 0 := by
  unfold ofTlv ofWord16 ofWord32
  cases htype : EntryType.ofCode? t.type with
  | none => simp [unmatched, EntryType.ne_code_of_ofCode? htype]
  | some known =>
      rw [EntryType.eq_code_of_ofCode? htype]
      cases known with
      | userClass | idleMinutes => cases t.word16? <;> simp [unmatched, EntryType.code_inj]
      | capabilities => simp [unmatched, EntryType.code_inj, Catalogue.length_unmatched_scan]
      | shortCapabilities =>
          simp [unmatched, EntryType.code_inj, Catalogue.length_unmatched_scanShort]
      | extras => simp [unmatched, EntryType.code_inj]
      | _ => cases t.word32? <;> simp [unmatched, EntryType.code_inj]

theorem length_unknownTypes_ofTlv (t : Tlv) :
    (ofTlv cat t).unknownTypes.length =
      (if t.isUnknown then 1 else 0) + (t.subEntries?.getD []).countP ExtraEntry.isUnknown := by
  have hknown : t.isUnknown = (EntryType.ofCode? t.type).isNone := Keyed.isNone_find?.symm
  rw [hknown]
  unfold ofTlv ofWord16 ofWord32 Tlv.subEntries?
  cases htype : EntryType.ofCode? t.type with
  | none => simp [unknownTypes, EntryType.ne_code_of_ofCode? htype]
  | some known =>
      rw [EntryType.eq_code_of_ofCode? htype]
      cases known with
      | userClass | idleMinutes => cases t.word16? <;> simp [unknownTypes, EntryType.code_inj]
      | capabilities | shortCapabilities => simp [unknownTypes, EntryType.code_inj]
      | extras =>
          rw [if_pos rfl, Option.isNone_some, if_neg Bool.false_ne_true, Nat.zero_add]
          exact Extra.length_flatMap_unknownTypes cat _
      | _ => cases t.word32? <;> simp [unknownTypes, EntryType.code_inj]

theorem length_flatMap_unmatched (c : Chain) :
    ((c.map (ofTlv cat)).flatMap unmatched).length =
      c.identifiers.countP cat.isMiss + c.shortIdentifiers.countP cat.isShortMiss := by
  unfold Chain.identifiers Chain.shortIdentifiers
  induction c with
  | nil => rfl
  | cons t c ih =>
      rw [List.map_cons, List.flatMap_cons, List.length_append, ih, length_unmatched_ofTlv,
        Chain.parts_cons, Chain.parts_cons, List.countP_append, List.countP_append, apply_ite
        (List.countP cat.isMiss), apply_ite (List.countP cat.isShortMiss), List.countP_nil,
        List.countP_nil]
      omega

theorem length_flatMap_unknownTypes (c : Chain) :
    ((c.map (ofTlv cat)).flatMap unknownTypes).length =
      c.countP Tlv.isUnknown + c.subEntries.countP ExtraEntry.isUnknown := by
  induction c with
  | nil => rfl
  | cons t c ih =>
      rw [List.map_cons, List.flatMap_cons, List.length_append, ih, length_unknownTypes_ofTlv,
        Chain.subEntries_cons, List.countP_cons, List.countP_append]
      omega

end Entry

/-! ### Whole blocks -/

/-- Whether a reading says what a counted block says, in its record and in its counts. -/
structure Reading.SaidBy (cat : Catalogue) (handle : String) (warningLevel : UInt16) (c : Chain)
    (r : Reading) : Prop where
  handle : r.record.handle = handle
  warningLevel : r.record.warningLevel = warningLevel
  fields : r.record.SaidBy cat c
  unmatched : r.unmatched =
    c.identifiers.countP cat.isMiss + c.shortIdentifiers.countP cat.isShortMiss
  unknown : r.unknown = c.countP Tlv.isUnknown + c.subEntries.countP ExtraEntry.isUnknown

theorem Reading.saidBy_ofBlock (cat : Catalogue) (handle : String) (warningLevel : UInt16)
    (found : List Tlv.Found) :
    (ofBlock cat handle warningLevel found).SaidBy cat handle warningLevel (Chain.ofFound found) := by
  have hrecord : (ofBlock cat handle warningLevel found).record =
      Record.after cat (Chain.ofFound found) { handle, warningLevel } := List.foldl_map
  obtain ⟨hhandle, hlevel, -, -⟩ :=
    Record.same_after cat (Chain.ofFound found) { handle, warningLevel }
  exact
    { handle := hrecord ▸ hhandle
      warningLevel := hrecord ▸ hlevel
      fields := hrecord ▸ Record.saidBy_after cat _ handle warningLevel
      unmatched := Entry.length_flatMap_unmatched cat _
      unknown := Entry.length_flatMap_unknownTypes cat _ }

theorem Reading.saidBy_of_readBlock {cat : Catalogue} {r : Reading} {c c' : Cursor}
    (h : Record.readBlock cat c = .ok r c') :
    ∃ handle warningLevel chain, r.SaidBy cat handle warningLevel chain := by
  obtain ⟨handle, c₁, -, h⟩ := Reader.bind_inv h
  obtain ⟨warningLevel, c₂, -, h⟩ := Reader.bind_inv h
  obtain ⟨count, c₃, -, h⟩ := Reader.bind_inv h
  obtain ⟨found, c₄, -, h⟩ := Reader.bind_inv h
  obtain ⟨rfl, -⟩ := Reader.pure_inv h
  exact ⟨_, warningLevel, _, saidBy_ofBlock cat _ warningLevel found⟩

/-- Whether two readings are the same but for their remarks. -/
structure Reading.Alike (r r' : Reading) : Prop where
  record : r.record = r'.record
  unmatched : r.unmatched = r'.unmatched
  unknown : r.unknown = r'.unknown

section alike

variable {cat : Catalogue} {handle : String} {warningLevel : UInt16} {c : Chain} {r r' : Reading}

theorem Reading.SaidBy.unique (h : r.SaidBy cat handle warningLevel c)
    (h' : r'.SaidBy cat handle warningLevel c) : r.Alike r' where
  record := h.fields.unique h'.fields (h.handle.trans h'.handle.symm)
    (h.warningLevel.trans h'.warningLevel.symm)
  unmatched := h.unmatched.trans h'.unmatched.symm
  unknown := h.unknown.trans h'.unknown.symm

theorem Reading.SaidBy.of_alike (h : r'.SaidBy cat handle warningLevel c) (hr : r.Alike r') :
    r.SaidBy cat handle warningLevel c where
  handle := hr.record ▸ h.handle
  warningLevel := hr.record ▸ h.warningLevel
  fields := hr.record ▸ h.fields
  unmatched := hr.unmatched ▸ h.unmatched
  unknown := hr.unknown ▸ h.unknown

end alike

/-! ### The order of the entries -/

/-- The field that entries of a type are for. -/
def EntryType.field : EntryType → Record.Field
  | userClass => .userClass
  | createdAt => .createdAt
  | onlineSince => .onlineSince
  | idleMinutes => .idle
  | memberSince => .memberSince
  | icqStatus => .icqStatus
  | externalIp => .externalIp
  | capabilities | shortCapabilities => .capabilities
  | sessionLength | sessionLengthAol => .sessionLength
  | extras => .extras

namespace Chain

/-- The entries that are for a field, in order. -/
def feeding (field : Record.Field) (c : Chain) : Chain :=
  c.filter fun t => (EntryType.ofCode? t.type).map EntryType.field = some field

/-- Whether a chain has the entries of another, and those for one field in the same order. -/
structure Reordered (c c' : Chain) : Prop where
  perm : c.Perm c'
  feeding : ∀ field, c.feeding field = c'.feeding field

variable {c c' : Chain}

theorem latest?_feeding {α : Type} (read : Bytes → Option α) {field : Record.Field}
    {types : List EntryType} (h : ∀ type ∈ types, type.field = field) :
    latest? (Tlv.says? read types) (c.feeding field) = latest? (Tlv.says? read types) c := by
  refine latest?_filter _ c fun t hother => ?_
  unfold Tlv.says?
  rw [if_neg]
  intro hmem
  obtain ⟨type, htype, hcode⟩ := List.mem_map.mp hmem
  rw [← hcode, EntryType.ofCode?_code, Option.map_some, h type htype] at hother
  exact absurd rfl (of_decide_eq_false hother)

theorem ofType_feeding (type : EntryType) :
    (c.feeding type.field).ofType type.code = c.ofType type.code := by
  unfold feeding ofType
  rw [List.filter_filter]
  refine List.filter_congr fun t _ => ?_
  by_cases hcode : t.type = type.code
  · rw [hcode, EntryType.ofCode?_code]
    simp
  · simp [hcode]

namespace Reordered

theorem latest? {α : Type} (h : c.Reordered c') (read : Bytes → Option α) (field : Record.Field)
    {types : List EntryType} (htypes : ∀ type ∈ types, type.field = field) :
    Whereabouts.latest? (Tlv.says? read types) c = Whereabouts.latest? (Tlv.says? read types) c' := by
  rw [← latest?_feeding read htypes, h.feeding, latest?_feeding read htypes]

theorem ofType (h : c.Reordered c') (type : EntryType) :
    c.ofType type.code = c'.ofType type.code := by
  rw [← ofType_feeding, h.feeding, ofType_feeding]

theorem has (h : c.Reordered c') (type : UInt16) : c.has type = c'.has type := h.perm.any_eq

theorem identifiers (h : c.Reordered c') : c.identifiers = c'.identifiers :=
  congrArg (List.flatMap _) (h.ofType .capabilities)

theorem shortIdentifiers (h : c.Reordered c') : c.shortIdentifiers = c'.shortIdentifiers :=
  congrArg (List.flatMap _) (h.ofType .shortCapabilities)

theorem subEntries (h : c.Reordered c') : c.subEntries = c'.subEntries :=
  congrArg (fun found : Chain => (found.map Tlv.value).flatMap ExtraEntry.splitAll)
    (h.ofType .extras)

end Reordered

end Chain

/-- The order between entries for different fields says nothing. -/
theorem Record.SaidBy.of_reordered {cat : Catalogue} {c c' : Chain} {r : Record}
    (h : r.SaidBy cat c) (hc : c.Reordered c') : r.SaidBy cat c' where
  userClass := h.userClass.trans (hc.latest? _ .userClass (by decide))
  createdAt := h.createdAt.trans (hc.latest? _ .createdAt (by decide))
  onlineSince := h.onlineSince.trans (hc.latest? _ .onlineSince (by decide))
  memberSince := h.memberSince.trans (hc.latest? _ .memberSince (by decide))
  idleMinutes := h.idleMinutes.trans (hc.latest? _ .idle (by decide))
  sessionLength := h.sessionLength.trans (hc.latest? _ .sessionLength (by decide))
  icqStatus := h.icqStatus.trans (congrArg _ (hc.latest? _ .icqStatus (by decide)))
  externalIp := h.externalIp.trans (hc.latest? _ .externalIp (by decide))
  advertised := by rw [h.advertised, hc.has, hc.has]
  features := by rw [h.features, hc.identifiers, hc.shortIdentifiers]
  icon := by rw [h.icon, hc.identifiers]
  extras := by rw [h.extras, hc.has]
  inExtras := hc.subEntries ▸ h.inExtras
  profile := h.profile
  awayMessage := h.awayMessage

theorem Reading.SaidBy.of_reordered {cat : Catalogue} {handle : String} {warningLevel : UInt16}
    {c c' : Chain} {r : Reading} (h : r.SaidBy cat handle warningLevel c) (hc : c.Reordered c') :
    r.SaidBy cat handle warningLevel c' where
  handle := h.handle
  warningLevel := h.warningLevel
  fields := h.fields.of_reordered hc
  unmatched := by rw [h.unmatched, hc.identifiers, hc.shortIdentifiers]
  unknown := by rw [h.unknown, hc.perm.countP_eq, hc.subEntries]

/-! ### Reading a block -/

/-- The entries of a counted block. -/
def Chain.block (count : UInt16) (body : Bytes) : Chain :=
  .ofFound (splitCounted count.toNat body.length body).1

namespace Record

/-- **A counted block says what its entries say, field by field**, whatever its octets are.  Nothing
else is said by them, and a block with the same entries in another order is read alike, if those
for one field are in the same order. -/
theorem readBlock_said (cat : Catalogue) {handle body : Bytes} {warningLevel count : UInt16}
    {c : Cursor} (hc : c.unread = front handle warningLevel count ++ body) :
    ∃ reading c', readBlock cat c = .ok reading c' ∧
      (∀ r : Reading, r.SaidBy cat (Utf8.decodeLossy (handle.take Bytes.countedLimit)) warningLevel
        (Chain.block count body) ↔ r.Alike reading) ∧
      ∀ (body' : Bytes) (count' : UInt16) (d : Cursor),
        d.unread = front handle warningLevel count' ++ body' →
        (Chain.block count body).Reordered (Chain.block count' body') →
        ∃ reading' d', readBlock cat d = .ok reading' d' ∧ reading'.Alike reading := by
  obtain ⟨c', hread, -, -⟩ := readBlock_of_front cat hc
  have hsaid := Reading.saidBy_ofBlock cat (Utf8.decodeLossy (handle.take Bytes.countedLimit))
    warningLevel (Chain.splitCounted count.toNat body.length body).1
  refine ⟨_, c', hread, fun r => ⟨fun h => h.unique hsaid, hsaid.of_alike⟩, ?_⟩
  intro body' count' d hd hreordered
  obtain ⟨d', hread', -, -⟩ := readBlock_of_front cat hd
  have hsaid' := Reading.saidBy_ofBlock cat
    (Utf8.decodeLossy (handle.take Bytes.countedLimit)) warningLevel
    (Chain.splitCounted count'.toNat body'.length body').1
  exact ⟨_, d', hread', hsaid'.unique (hsaid.of_reordered hreordered)⟩

/-- An idle time of five minutes, a class, and an idle time that is too short, then with the class in
front. -/
theorem readBlock_said_idle :
    ∃ reading c reading' d,
      readBlock .standard (.ofBytes
        [1, 97, 0, 0, 0, 3, 0, 4, 0, 2, 0, 5, 0, 1, 0, 2, 0, 16, 0, 4, 0, 1, 9]) = .ok reading c ∧
      readBlock .standard (.ofBytes
        [1, 97, 0, 0, 0, 3, 0, 1, 0, 2, 0, 16, 0, 4, 0, 2, 0, 5, 0, 4, 0, 1, 9]) = .ok reading' d ∧
      reading.record.idleMinutes = some 5 ∧ reading'.record = reading.record := by
  have hc : (Cursor.ofBytes
      [1, 97, 0, 0, 0, 3, 0, 4, 0, 2, 0, 5, 0, 1, 0, 2, 0, 16, 0, 4, 0, 1, 9]).unread =
      front [97] 0 3 ++ [0, 4, 0, 2, 0, 5, 0, 1, 0, 2, 0, 16, 0, 4, 0, 1, 9] := by decide
  obtain ⟨reading, c, hread, hsaid, hother⟩ := readBlock_said .standard hc
  have hidle := ((hsaid reading).mpr ⟨rfl, rfl, rfl⟩).fields.idleMinutes
  obtain ⟨reading', d, hread', hsame⟩ :=
    hother [0, 1, 0, 2, 0, 16, 0, 4, 0, 2, 0, 5, 0, 4, 0, 1, 9] 3
      (.ofBytes [1, 97, 0, 0, 0, 3, 0, 1, 0, 2, 0, 16, 0, 4, 0, 2, 0, 5, 0, 4, 0, 1, 9])
      (by decide) ⟨by decide, fun field => by cases field <;> decide⟩
  exact ⟨reading, c, reading', d, hread, hread', hidle.trans (by decide), hsame.record⟩

/-! ### Extras -/

theorem extras_addTrailer (cat : Catalogue) (block : Reading) (found : List Tlv.Found) :
    (block.addTrailer cat found).record.extras = block.record.extras := by
  unfold Reading.addTrailer Trailer.apply
  dsimp only
  rw [foldl_addScan]

/-- **The extras of a record are what its sub-entries say**, in all values with extras together, and
whatever the octets of these are.  Each octet belongs to one sub-entry, except for a tail of three
at most behind the last of a value. -/
theorem read_extras (cat : Catalogue) {handle body : Bytes} {warningLevel count : UInt16}
    {c : Cursor} (hc : c.unread = front handle warningLevel count ++ body) :
    ∃ block c₁ reading c₂, readBlock cat c = .ok block c₁ ∧ read cat c = .ok reading c₂ ∧
      reading.record.extras = block.record.extras ∧
      (∃ parts, ExtraEntry.SplitsAll (Chain.block count body).extraValues parts) ∧
      ∀ parts, ExtraEntry.SplitsAll (Chain.block count body).extraValues parts →
        (reading.record.extras.isSome ↔ (Chain.block count body).extraValues ≠ []) ∧
        (∀ x, reading.record.extras = some x ↔
          (Chain.block count body).extraValues ≠ [] ∧ x.SaidBy cat (parts.flatMap Prod.fst)) ∧
        block.unknown = (Chain.block count body).countP Tlv.isUnknown +
          (parts.flatMap Prod.fst).countP ExtraEntry.isUnknown ∧
        List.Forall₂ (fun value part => value = part.1.flatMap ExtraEntry.bytes ++ part.2 ∧
          part.2.length < 4) (Chain.block count body).extraValues parts := by
  obtain ⟨c₁, hblock, -, -⟩ := readBlock_of_front cat hc
  obtain ⟨c₂, hread, -, -⟩ := read_of_readBlock hblock
  have hsaid := Reading.saidBy_ofBlock cat (Utf8.decodeLossy (handle.take Bytes.countedLimit))
    warningLevel (Chain.splitCounted count.toNat body.length body).1
  refine ⟨_, c₁, _, c₂, hblock, hread, extras_addTrailer .., ExtraEntry.exists_splitsAll _, ?_⟩
  intro parts hparts
  rw [extras_addTrailer]
  have hentries : parts.flatMap Prod.fst = (Chain.block count body).subEntries := hparts.flatMap_fst
  have hsome := hsaid.fields.extras
  rw [Bool.eq_iff_iff, Chain.has_extras_iff] at hsome
  rw [hentries]
  refine ⟨hsome, fun x => ⟨fun hx => ⟨?_, hsaid.fields.inExtras x hx⟩, ?_⟩, hsaid.unknown, ?_⟩
  · exact hsome.mp (hx ▸ rfl)
  · rintro ⟨hvalues, hx⟩
    obtain ⟨y, hy⟩ := Option.isSome_iff_exists.mp (hsome.mpr hvalues)
    rw [hy, hx.unique (hsaid.fields.inExtras y hy)]
  · exact hparts.imp fun _ _ h => ⟨h.joined, h.length_left⟩

/-- An away text with three octets behind it, and in a second value an entry of unknown type, a
checksum, and a checksum of no known kind. -/
theorem read_extras_away :
    ∃ reading c x,
      read .standard (.ofBytes
        [1, 97, 0, 0, 0, 2, 0, 29, 0, 13, 0, 2, 4, 6, 0, 2, 104, 105, 0, 0, 0, 2, 4,
          0, 29, 0, 14, 119, 119, 0, 0, 0, 1, 0, 1, 9, 0, 1, 7, 1, 8]) = .ok reading c ∧
      reading.record.extras = some x ∧ x.away = some ⟨[104, 105], none⟩ ∧
      x.iconChecksum.map IconChecksum.parts = some (0, [9]) := by
  have hc : (Cursor.ofBytes
      [1, 97, 0, 0, 0, 2, 0, 29, 0, 13, 0, 2, 4, 6, 0, 2, 104, 105, 0, 0, 0, 2, 4,
        0, 29, 0, 14, 119, 119, 0, 0, 0, 1, 0, 1, 9, 0, 1, 7, 1, 8]).unread =
      front [97] 0 2 ++ [0, 29, 0, 13, 0, 2, 4, 6, 0, 2, 104, 105, 0, 0, 0, 2, 4,
        0, 29, 0, 14, 119, 119, 0, 0, 0, 1, 0, 1, 9, 0, 1, 7, 1, 8] := by decide
  obtain ⟨block, c₁, reading, c, -, hread, -, -, hsplit⟩ := read_extras .standard hc
  have hparts : ExtraEntry.SplitsAll
      [[0, 2, 4, 6, 0, 2, 104, 105, 0, 0, 0, 2, 4], [119, 119, 0, 0, 0, 1, 0, 1, 9, 0, 1, 7, 1, 8]]
      [([⟨2, 4, 6, [0, 2, 104, 105, 0, 0]⟩], [0, 2, 4]),
        ([⟨0x7777, 0, 0, []⟩, ⟨1, 0, 1, [9]⟩, ⟨1, 7, 1, [8]⟩], [])] :=
    .cons (.entry (.tail (by decide)))
      (.cons (.entry (.entry (.entry (.tail (by decide))))) .nil)
  obtain ⟨hsome, hsaid, -, -⟩ := hsplit _ hparts
  obtain ⟨x, hx⟩ := Option.isSome_iff_exists.mp (hsome.mpr (by decide))
  obtain ⟨-, hx'⟩ := (hsaid x).mp hx
  exact ⟨reading, c, x, hread, hx, hx'.away.trans (by decide), hx'.iconChecksum.trans (by decide)⟩

end Record
end Whereabouts
