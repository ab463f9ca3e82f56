import Whereabouts.Proofs.Reencoding

/-! # Announcements and their echo

An announcement has its capabilities in a trailer, a record has them in the counted block.  Behind
a front without entries an announcement is read as the record that the local user is shown as, and
so is that record when it is written itself: who reads cannot tell the two layouts apart
(`gives_announced`).  Both are that very record if nothing of it has to be cut or left out
(`read_announced`). -/

namespace Whereabouts

namespace Catalogue

theorem standard_single :
    ∀ row ∈ standard.capabilities, ∃ bit < 32, row.features = .ofBit bit := by
  decide +kernel

/-- Rows for all features of a set stand for all of it. -/
theorem known_standard {f : Features}
    (h : ∀ i, f.has i = true → ∃ row ∈ standard.capabilities, row.features.has i = true) :
    standard.known f = f := by
  refine known_eq_self fun i hi => ?_
  obtain ⟨row, hrow, hrowi⟩ := h i hi
  refine ⟨row, hrow, ?_, hrowi⟩
  obtain ⟨bit, hbit, hsingle⟩ := standard_single row hrow
  have hhas : ∀ k, row.features.has k = true → bit = k := by
    intro k hk
    rw [hsingle] at hk
    exact of_decide_eq_true ((getLsbD_one_shiftLeft hbit k).symm.trans hk)
  rw [Features.includes_iff]
  intro j hj
  rwa [← hhas j hj, hhas i hrowi]

end Catalogue

namespace Announcement

variable {cat : Catalogue}

/-- An announcement behind a front without entries. -/
def layout (cat : Catalogue) (a : Announcement) : Layout where
  handle := Utf8.encode a.handle
  warningLevel := 0
  block := []
  trailer := a.toChain cat

theorem bytes_layout (cat : Catalogue) (a : Announcement) :
    (a.layout cat).bytes = Bytes.counted (Utf8.encode a.handle) ++ Bytes.ofWord16 0 ++
      Bytes.ofWord16 0 ++ a.encode cat := by
  have hfront : (a.layout cat).front =
      Bytes.counted (Utf8.encode a.handle) ++ Bytes.ofWord16 0 ++ Bytes.ofWord16 0 :=
    List.append_nil _
  unfold Layout.bytes
  rw [hfront]
  rfl

theorem said_layout (h : cat.WellFormed) (a : Announcement) :
    (a.layout cat).said cat =
      ⟨a.profile.map Text.clipTrailer, a.awayMessage.map Text.clipTrailer,
        [⟨cat.known a.features, cat.keep a.icon, []⟩], []⟩ := by
  have hcut : Tlv.cut ⟨TrailerType.capabilities.code, cat.encodeBlock a.features a.icon⟩ =
      ⟨TrailerType.capabilities.code, cat.encodeBlock a.features a.icon⟩ :=
    Tlv.cut_of_le ((cat.length_encodeBlock_le a.features a.icon).trans (by decide))
  unfold Layout.said layout toChain
  rw [List.map_append, List.map_cons, List.map_nil, hcut, ← Catalogue.scan_encodeBlock h.ids_nodup]
  obtain ⟨handle, profile, awayMessage, features, icon⟩ := a
  rcases profile with _ | ⟨bytes, _ | name⟩ <;>
    rcases awayMessage with _ | ⟨bytes', _ | name'⟩ <;> rfl

/-- **An announcement is read as the record that it makes is read.** -/
theorem gives_announced (h : cat.WellFormed) (a : Announcement) :
    ((a.layout cat).reading cat).Gives (a.toRecord.canon cat) := by
  have hblock : ((a.layout cat).blockReading cat).Gives
      { handle := Utf8.clip 255 a.handle } := ⟨rfl, rfl, rfl⟩
  refine ⟨?_, ?_, ?_⟩
  · rw [Layout.record_reading, said_layout h, hblock.record]
    simp only [Trailer.apply, List.foldl_cons, List.foldl_nil, Record.addScan, Option.getD_none,
      Advertised.add, Features.none_union, Option.none_or, Option.or_none]
    rfl
  · rw [Layout.unmatched_reading, said_layout h, hblock.unmatched]
    rfl
  · rw [Layout.unknown_reading, said_layout h, hblock.unknown]
    rfl

/-! ### Announcements that fit -/

/-- Whether an announcement can be said in full: its texts fit their places, and the standard
catalogue has rows for its features and its icon. -/
structure Sayable (a : Announcement) : Prop where
  handle : (Utf8.encode a.handle).length ≤ 255
  profile : ∀ t ∈ a.profile, t.bytes.length ≤ 65535
  profileEncoding : ∀ t ∈ a.profile, ∀ name ∈ t.encoding, (Utf8.encode name).length ≤ 65535
  awayMessage : ∀ t ∈ a.awayMessage, t.bytes.length ≤ 65535
  awayEncoding : ∀ t ∈ a.awayMessage, ∀ name ∈ t.encoding, (Utf8.encode name).length ≤ 65535
  features : ∀ i, a.features.has i = true →
    ∃ row ∈ Catalogue.standard.capabilities, row.features.has i = true
  icon : Catalogue.standard.Names a.icon

theorem canon_toRecord {a : Announcement} (h : a.Sayable) :
    a.toRecord.canon .standard = a.toRecord := by
  have hfits : a.toRecord.Fits :=
    { handle := .inl h.handle
      away := nofun
      externalLink := nofun
      profile := fun t ht => ⟨h.profile t ht, fun name hname => .inl (h.profileEncoding t ht name hname)⟩
      awayMessage := fun t ht =>
        ⟨h.awayMessage t ht, fun name hname => .inl (h.awayEncoding t ht name hname)⟩ }
  unfold Record.canon
  rw [(Record.clip_eq_self_iff a.toRecord).mpr hfits]
  unfold toRecord
  simp only [Option.map_some, Option.map_none, Catalogue.known_standard h.features,
    Catalogue.keep_of_names h.icon]

/-- **An announcement comes back as the record it makes**, and so does that record, with nothing
unmatched, nothing unknown and nothing left over. -/
theorem read_announced {a : Announcement} (h : a.Sayable) :
    (∃ reading c,
      Record.read .standard (.ofBytes (Bytes.counted (Utf8.encode a.handle) ++ Bytes.ofWord16 0 ++
        Bytes.ofWord16 0 ++ a.encode .standard)) = .ok reading c ∧
      c.remaining = 0 ∧ reading.Gives a.toRecord) ∧
    ∀ aol, ∃ reading c,
      Record.read .standard (.ofBytes (a.toRecord.encode .standard aol)) = .ok reading c ∧
      c.remaining = 0 ∧ reading.Gives a.toRecord := by
  have hstandard := Catalogue.standard_wellFormed
  constructor
  · have hcount : (a.layout .standard).block.length ≤ 65535 := Nat.zero_le _
    obtain ⟨c, hread, hend, -⟩ :=
      Layout.read_of_unread .standard hcount (Cursor.unread_ofBytes _)
    rw [bytes_layout] at hread
    exact ⟨_, c, hread, hend, canon_toRecord h ▸ gives_announced hstandard a⟩
  · intro aol
    obtain ⟨reading, c, hread, hend, -, gives⟩ :=
      Record.read_of_unread hstandard aol a.toRecord (Cursor.unread_ofBytes _)
    exact ⟨reading, c, hread, hend, canon_toRecord h ▸ gives⟩

/-- A user with a profile, an empty away message, two features and an icon. -/
def greeting : Announcement where
  handle := "me"
  profile := some ⟨[104, 105], some "us-ascii"⟩
  awayMessage := some .empty
  features := ⟨0x2000008⟩
  icon := some ⟨7, by decide⟩

theorem sayable_greeting : greeting.Sayable where
  handle := by decide
  profile := by
    rintro t ⟨⟩
    decide
  profileEncoding := by
    rintro t ⟨⟩ name ⟨⟩
    decide
  awayMessage := by
    rintro t ⟨⟩
    decide
  awayEncoding := by
    rintro t ⟨⟩ name ⟨⟩
  features := by
    intro i hi
    have hbits : ∀ j : Fin 32, greeting.features.has j = true →
        ∃ row ∈ Catalogue.standard.capabilities, row.features.has j = true := by
      decide +kernel
    exact hbits ⟨i, Features.lt_of_has hi⟩ hi
  icon := by
    rintro icon ⟨⟩
    decide

theorem read_announced_greeting :
    greeting.Sayable ∧
    ∃ reading c,
      Record.read .standard (.ofBytes ([2, 109, 101, 0, 0, 0, 0] ++ greeting.encode .standard)) =
        .ok reading c ∧
      c.remaining = 0 ∧ reading.record = greeting.toRecord := by
  obtain ⟨⟨reading, c, hread, hend, gives⟩, -⟩ := read_announced sayable_greeting
  exact ⟨sayable_greeting, reading, c, hread, hend, gives.record⟩

end Announcement
end Whereabouts
