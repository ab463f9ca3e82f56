import Whereabouts.Proofs.Catalogue
import Whereabouts.Proofs.Chain
import Whereabouts.Proofs.Utf8
import Whereabouts.Record.Extras

/-! # Presence extras on the wire and back

A block of extras nests twice: entries behind their lengths, and texts behind their lengths
inside of entries.  `splitAll_flatMap` undoes the outer layer and `ofBody_toBody` the inner one;
`Extras.canon` is what the two leave of extras (`foldl_ofBlock_encode`). -/

namespace Whereabouts

/-! ### Entries -/

namespace ExtraEntry

/-- An entry on the wire, as it declares itself. -/
def bytes (e : ExtraEntry) : Bytes := Bytes.ofWord16 e.type ++ [e.number, e.declared] ++ e.body

/-- The entry that is written for a body. -/
def ofWritten (type : ExtraType) (number : UInt8) (body : Bytes) : ExtraEntry :=
  ⟨type.code, number, UInt8.ofNat (body.take bodyLimit).length, body.take bodyLimit⟩

theorem length_body_ofWritten_le (type : ExtraType) (number : UInt8) (body : Bytes) :
    (ofWritten type number body).body.length ≤ 255 :=
  List.length_take_le _ _

theorem declared_ofWritten (type : ExtraType) (number : UInt8) (body : Bytes) :
    (ofWritten type number body).declared.toNat = (ofWritten type number body).body.length := by
  have h := length_body_ofWritten_le type number body
  show (UInt8.ofNat (ofWritten type number body).body.length).toNat = _
  rw [UInt8.toNat_ofNat']
  omega

theorem ofWritten_of_le {type : ExtraType} {number : UInt8} {body : Bytes}
    (h : body.length ≤ 255) :
    ofWritten type number body = ⟨type.code, number, UInt8.ofNat body.length, body⟩ := by
  unfold ofWritten bodyLimit
  rw [List.take_of_length_le h]

theorem split?_bytes {e : ExtraEntry} (h : e.declared.toNat = e.body.length) (rest : Bytes) :
    split? (e.bytes ++ rest) = some (e, rest) := by
  simp only [bytes, Bytes.ofWord16, List.cons_append, List.nil_append, split?, h,
    List.take_left, List.drop_left, Bytes.word16_ofWord16]

theorem splitAfter_flatMap {entries : List ExtraEntry} {count : Nat} (done : List ExtraEntry)
    (h : ∀ e ∈ entries, e.declared.toNat = e.body.length) (hc : entries.length ≤ count) :
    splitAfter count done (entries.flatMap bytes) = done.reverse ++ entries := by
  induction entries generalizing count done with
  | nil => cases count <;> simp [splitAfter, split?]
  | cons e entries ih =>
      obtain ⟨count, rfl⟩ : ∃ k, count = k + 1 := ⟨count - 1, by simp at hc; omega⟩
      obtain ⟨he, hrest⟩ := List.forall_mem_cons.mp h
      rw [List.flatMap_cons, splitAfter, split?_bytes he]
      simp only
      rw [ih _ hrest (Nat.le_of_succ_le_succ hc), List.reverse_cons, List.append_assoc]
      rfl

/-- Entries that declare themselves as they are, are split off again. -/
theorem splitAll_flatMap {entries : List ExtraEntry}
    (h : ∀ e ∈ entries, e.declared.toNat = e.body.length) :
    splitAll (entries.flatMap bytes) = entries := by
  have hc : entries.length ≤ (entries.flatMap bytes).length := by
    clear h
    induction entries with
    | nil => exact Nat.le_refl _
    | cons e entries ih =>
        have : e.bytes.length = 4 + e.body.length := by simp [bytes]; omega
        rw [List.flatMap_cons, List.length_append, List.length_cons]
        omega
  unfold splitAll
  rw [splitAfter_flatMap [] h hc]
  rfl

end ExtraEntry

/-! ### Texts -/

namespace Text

/-- What one entry has room for: the first octets of the name of the encoding, and as much of
the text as fits beside it. -/
def clipExtra (t : Text) : Text :=
  match t.encoding with
  | none => ⟨t.bytes.take 251, none⟩
  | some name =>
      ⟨t.bytes.take (247 - min 64 (Utf8.encode name).length), some (Utf8.clip 64 name)⟩

theorem length_writtenBytes_le (t : Text) :
    t.writtenBytes.length ≤ 255 - overhead t.writtenEncoding :=
  List.length_take_le _ _

theorem length_writtenEncoding_le {t : Text} {name : Bytes} (h : t.writtenEncoding = some name) :
    name.length ≤ 64 := by
  unfold writtenEncoding at h
  rw [Option.map_eq_some_iff] at h
  obtain ⟨full, -, rfl⟩ := h
  exact List.length_take_le _ _

theorem length_toBody_le (t : Text) : t.toBody.length ≤ 255 := by
  have hbytes := t.length_writtenBytes_le
  unfold toBody
  cases hname : t.writtenEncoding with
  | none =>
      rw [hname, overhead] at hbytes
      simp only [List.length_append, Bytes.length_ofWord16]
      omega
  | some name =>
      have := length_writtenEncoding_le hname
      rw [hname, overhead] at hbytes
      simp only [List.length_append, Bytes.length_ofWord16]
      omega

/-- The reader of bodies finds the text in front and leaves the rest for the encoding. -/
theorem ofBody_append {bytes tail : Bytes} (h : bytes.length < 65536) (ht : 2 ≤ tail.length) :
    ofBody (Bytes.ofWord16 (UInt16.ofNat bytes.length) ++ bytes ++ tail) =
      ⟨bytes, encodingOfBody tail⟩ := by
  have hcons : ∀ v : UInt16, Bytes.ofWord16 v ++ bytes ++ tail =
      UInt8.ofNat (v.toNat / 256) :: UInt8.ofNat (v.toNat % 256) :: (bytes ++ tail) :=
    fun _ => rfl
  rw [hcons, ofBody, if_neg (by simp only [List.length_cons, List.length_append]; omega)]
  simp only
  rw [Bytes.word16_ofWord16, Bytes.word16_toNat_ofNat h, List.take_left, List.drop_left]

theorem encodingOfBody_name {name : Bytes} (h : name.length < 65536) :
    encodingOfBody (Bytes.ofWord16 hasEncoding ++ Bytes.ofWord16 0 ++
      Bytes.ofWord16 (UInt16.ofNat name.length) ++ name) = some (Utf8.decodeLossy name) := by
  simp only [Bytes.ofWord16, List.cons_append, List.nil_append, encodingOfBody]
  rw [Bytes.word16_ofWord16, Bytes.word16_ofWord16, if_pos rfl, Bytes.word16_toNat_ofNat h,
    List.take_length]

/-- **A written body is read as the clipped text.** -/
theorem ofBody_toBody (t : Text) : ofBody t.toBody = t.clipExtra := by
  have hlen : t.writtenBytes.length < 65536 := by
    have := t.length_writtenBytes_le
    omega
  cases ht : t.encoding with
  | none =>
      have hname : t.writtenEncoding = none := by rw [writtenEncoding, ht, Option.map_none]
      simp only [toBody, hname]
      rw [ofBody_append hlen (by simp), clipExtra, ht, writtenBytes, hname]
      rfl
  | some name =>
      have hname : t.writtenEncoding = some ((Utf8.encode name).take 64) := by
        unfold writtenEncoding
        rw [ht]
        rfl
      have hshort := length_writtenEncoding_le hname
      simp only [toBody, hname]
      rw [ofBody_append hlen (by simp), encodingOfBody_name (by omega), clipExtra, ht, writtenBytes,
        hname, overhead, List.length_take, ExtraEntry.bodyLimit, Nat.sub_add_eq]
      rfl

end Text

/-! ### Extras -/

namespace Extras

variable {cat : Catalogue}

/-- The extras with their texts cut to what entries have room for. -/
def clip (x : Extras) : Extras :=
  { x with
    away := x.away.map Text.clipExtra
    externalLink := x.externalLink.map Text.clipExtra }

/-- What is left of extras on the wire: a mood needs a row of the catalogue. -/
def canon (cat : Catalogue) (x : Extras) : Extras := { x.clip with mood := cat.keep x.mood }

/-- The entries of a written block. -/
def writtenEntries (cat : Catalogue) (x : Extras) : List ExtraEntry :=
  [x.iconChecksum.map fun c => .ofWritten .iconChecksum c.kind.number c.digest,
    x.away.map fun t => .ofWritten .statusText textNumber t.toBody,
    x.externalLink.map fun t => .ofWritten .externalLink textNumber t.toBody,
    (x.mood.bind cat.row?).map fun row => .ofWritten .mood 0 (Utf8.encode row.mood)].filterMap id

theorem encode_eq (cat : Catalogue) (x : Extras) :
    x.encode cat = (x.writtenEntries cat).flatMap ExtraEntry.bytes := by
  unfold encode writtenEntries
  cases x.iconChecksum <;> cases x.away <;> cases x.externalLink <;> cases x.mood.bind cat.row? <;>
    rfl

theorem declared_of_mem_writtenEntries {x : Extras} {e : ExtraEntry}
    (h : e ∈ x.writtenEntries cat) : e.declared.toNat = e.body.length ∧ e.body.length ≤ 255 := by
  have hsome : ∃ type number body, e = ExtraEntry.ofWritten type number body := by
    unfold writtenEntries at h
    rw [List.mem_filterMap] at h
    obtain ⟨o, ho, rfl⟩ := h
    simp only [List.mem_cons, List.not_mem_nil, or_false] at ho
    rcases ho with ho | ho | ho | ho <;>
      (obtain ⟨_, -, rfl⟩ := Option.map_eq_some_iff.mp ho.symm; exact ⟨_, _, _, rfl⟩)
  obtain ⟨type, number, body, rfl⟩ := hsome
  exact ⟨ExtraEntry.declared_ofWritten _ _ _, ExtraEntry.length_body_ofWritten_le _ _ _⟩

theorem ofEntry_iconChecksum (cat : Catalogue) (c : IconChecksum) :
    Extra.ofEntry cat (.ofWritten .iconChecksum c.kind.number c.digest) = .iconChecksum c := by
  rw [ExtraEntry.ofWritten_of_le c.digest_length.2]
  simp only [Extra.ofEntry, ExtraType.ofCode?_code, ChecksumKind.ofNumber?_number,
    Option.bind_some, IconChecksum.ofDigest?, dif_pos c.digest_length]

theorem ofEntry_away (cat : Catalogue) (t : Text) :
    Extra.ofEntry cat (.ofWritten .statusText textNumber t.toBody) = .away t.clipExtra := by
  rw [ExtraEntry.ofWritten_of_le t.length_toBody_le]
  simp only [Extra.ofEntry, ExtraType.ofCode?_code, Text.ofBody_toBody]

theorem ofEntry_externalLink (cat : Catalogue) (t : Text) :
    Extra.ofEntry cat (.ofWritten .externalLink textNumber t.toBody) =
      .externalLink t.clipExtra := by
  rw [ExtraEntry.ofWritten_of_le t.length_toBody_le]
  simp only [Extra.ofEntry, ExtraType.ofCode?_code, Text.ofBody_toBody]

theorem ofEntry_mood (h : cat.WellFormed) {icon : Icon} {row : IconRow}
    (hrow : cat.row? icon = some row) :
    Extra.ofEntry cat (.ofWritten .mood 0 (Utf8.encode row.mood)) = .mood icon := by
  have hmem := Catalogue.mem_of_row? hrow
  rw [ExtraEntry.ofWritten_of_le (h.mood_length row hmem)]
  simp only [Extra.ofEntry, ExtraType.ofCode?_code, Utf8.decodeLossy_encode,
    String.isEmpty_iff, if_neg (h.mood_ne_empty row hmem), Catalogue.moodIcon?_of_row h hrow]

theorem map_ofEntry_mood (h : cat.WellFormed) (icon : Option Icon) :
    (icon.bind cat.row?).map
        (fun row => Extra.ofEntry cat (.ofWritten .mood 0 (Utf8.encode row.mood))) =
      (cat.keep icon).map .mood := by
  rw [Catalogue.keep_eq]
  cases icon with
  | none => rfl
  | some icon =>
      cases hrow : cat.row? icon with
      | none => simp [hrow, Option.filter_some]
      | some row => simp [hrow, Option.filter_some, ofEntry_mood h hrow]

theorem ofBlock_encode (h : cat.WellFormed) (x : Extras) :
    Extra.ofBlock cat (x.encode cat) =
      [x.iconChecksum.map Extra.iconChecksum, x.away.map fun t => .away t.clipExtra,
        x.externalLink.map fun t => .externalLink t.clipExtra,
        (cat.keep x.mood).map Extra.mood].filterMap id := by
  unfold Extra.ofBlock
  rw [encode_eq,
    ExtraEntry.splitAll_flatMap fun e he => (declared_of_mem_writtenEntries he).1, writtenEntries,
    List.map_filterMap]
  simp only [List.filterMap_cons, id_eq, Option.map_map, Function.comp_def,
    ofEntry_iconChecksum, ofEntry_away, ofEntry_externalLink, map_ofEntry_mood h]
  rfl

theorem length_encode_le (cat : Catalogue) (x : Extras) : (x.encode cat).length ≤ 1036 := by
  have hflat : ∀ entries : List ExtraEntry, (∀ e ∈ entries, e.body.length ≤ 255) →
      (entries.flatMap ExtraEntry.bytes).length ≤ 259 * entries.length := by
    intro entries he
    induction entries with
    | nil => exact Nat.le_refl _
    | cons e entries ih =>
        obtain ⟨hbody, hrest⟩ := List.forall_mem_cons.mp he
        have hlen : e.bytes.length = 4 + e.body.length := by simp [ExtraEntry.bytes]; omega
        have := ih hrest
        rw [List.flatMap_cons, List.length_append, List.length_cons]
        omega
  have hcount : (x.writtenEntries cat).length ≤ 4 := List.length_filterMap_le _ _
  have hbody : ∀ e ∈ x.writtenEntries cat, e.body.length ≤ 255 :=
    fun _ he => (declared_of_mem_writtenEntries he).2
  have := hflat _ hbody
  rw [encode_eq]
  omega

/-- **A written block says what is left of the extras**, if nothing was known before. -/
theorem foldl_ofBlock_encode (h : cat.WellFormed) (x : Extras) :
    (Extra.ofBlock cat (x.encode cat)).foldl Extra.apply {} = x.canon cat := by
  rw [ofBlock_encode h, canon, clip]
  cases x.iconChecksum <;> cases x.away <;> cases x.externalLink <;> cases cat.keep x.mood <;> rfl

end Extras
end Whereabouts
