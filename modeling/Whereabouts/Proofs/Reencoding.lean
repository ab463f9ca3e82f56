import Whereabouts.Proofs.OffWire
import Whereabouts.Proofs.RoundTrip

/-! # Writing what was read

A record off the wire keeps its features and icons when it is written again, as rows stand for
them.  Its texts may be longer than the places they are written to: what was damaged grew
when it was read, and a reader takes texts that a writer has no room for.  So writing and
reading again clips the texts and nothing else, and gives the same record exactly if they fit
(`decode_reencode`). -/

namespace Whereabouts

/-! ### Texts that fit -/

/-- Whether a cut behind so many octets leaves a text as it is: it is no longer, or it ends in a
replacement character that the cut goes through. -/
def Utf8.Fits (limit : Nat) (s : String) : Prop :=
  (encode s).length ≤ limit ∨
    ∃ front : String, s = front.push replacement ∧ (encode front).length < limit

namespace Text

/-- Whether an entry of the extras has room for a text with its encoding. -/
def FitsExtra (t : Text) : Prop :=
  match t.encoding with
  | none => t.bytes.length ≤ 251
  | some name =>
      t.bytes.length ≤ 247 - min 64 (Utf8.encode name).length ∧ Utf8.Fits 64 name

/-- Whether a trailer has room for a text with its encoding. -/
def FitsTrailer (t : Text) : Prop :=
  t.bytes.length ≤ 65535 ∧ ∀ name ∈ t.encoding, Utf8.Fits 65535 name

theorem clipExtra_eq_self_iff (t : Text) : t.clipExtra = t ↔ t.FitsExtra := by
  obtain ⟨bytes, encoding⟩ := t
  cases encoding with
  | none => simp [clipExtra, FitsExtra, List.take_eq_self_iff]
  | some name =>
      simp [clipExtra, FitsExtra, List.take_eq_self_iff, Utf8.clip_eq_self_iff, Utf8.Fits]

theorem clipTrailer_eq_self_iff (t : Text) : t.clipTrailer = t ↔ t.FitsTrailer := by
  obtain ⟨bytes, encoding⟩ := t
  cases encoding with
  | none => simp [clipTrailer, FitsTrailer, List.take_eq_self_iff]
  | some name =>
      simp [clipTrailer, FitsTrailer, List.take_eq_self_iff, Utf8.clip_eq_self_iff, Utf8.Fits]

end Text

theorem map_eq_self_iff {α : Type} {f : α → α} {o : Option α} :
    o.map f = o ↔ ∀ a ∈ o, f a = a := by
  cases o with
  | none => exact ⟨fun _ => nofun, fun _ => rfl⟩
  | some a => simp

theorem Extras.clip_eq_self_iff (x : Extras) :
    x.clip = x ↔ (∀ t ∈ x.away, t.FitsExtra) ∧ ∀ t ∈ x.externalLink, t.FitsExtra := by
  simp only [← Text.clipExtra_eq_self_iff, ← map_eq_self_iff]
  constructor
  · intro e
    exact ⟨congrArg Extras.away e, congrArg Extras.externalLink e⟩
  · rintro ⟨haway, hlink⟩
    unfold clip
    rw [haway, hlink]

namespace Record

/-- Whether all texts of a record fit their places. -/
structure Fits (r : Record) : Prop where
  handle : Utf8.Fits 255 r.handle
  away : ∀ x ∈ r.extras, ∀ t ∈ x.away, t.FitsExtra
  externalLink : ∀ x ∈ r.extras, ∀ t ∈ x.externalLink, t.FitsExtra
  profile : ∀ t ∈ r.profile, t.FitsTrailer
  awayMessage : ∀ t ∈ r.awayMessage, t.FitsTrailer

theorem clip_eq_self_iff (r : Record) : r.clip = r ↔ r.Fits := by
  have hextras : r.extras.map Extras.clip = r.extras ↔
      ∀ x ∈ r.extras, (∀ t ∈ x.away, t.FitsExtra) ∧ ∀ t ∈ x.externalLink, t.FitsExtra := by
    simp only [map_eq_self_iff, Extras.clip_eq_self_iff]
  have htrailer : ∀ o : Option Text, o.map Text.clipTrailer = o ↔ ∀ t ∈ o, t.FitsTrailer := by
    intro o
    simp only [map_eq_self_iff, Text.clipTrailer_eq_self_iff]
  constructor
  · intro e
    have hx := hextras.mp (congrArg Record.extras e)
    exact
      { handle := (Utf8.clip_eq_self_iff 255 r.handle).mp (congrArg Record.handle e)
        away := fun x h => (hx x h).1
        externalLink := fun x h => (hx x h).2
        profile := (htrailer r.profile).mp (congrArg Record.profile e)
        awayMessage := (htrailer r.awayMessage).mp (congrArg Record.awayMessage e) }
  · intro h
    unfold clip
    rw [(Utf8.clip_eq_self_iff 255 r.handle).mpr h.handle,
      hextras.mpr fun x hx => ⟨h.away x hx, h.externalLink x hx⟩,
      (htrailer r.profile).mpr h.profile, (htrailer r.awayMessage).mpr h.awayMessage]

theorem canon_of_offWire {cat : Catalogue} {r : Record} (h : r.OffWire cat) :
    r.canon cat = r.clip := by
  have hadvertised : (r.advertised.map fun a => ⟨cat.known a.features, cat.keep a.icon⟩) =
      r.advertised := by
    refine map_eq_self_iff.mpr fun a ha => ?_
    rw [Catalogue.known_of_spans (h.features a ha), Catalogue.keep_of_names (h.icon a ha)]
  have hextras : r.extras.map (Extras.canon cat) = r.extras.map Extras.clip := by
    refine Option.map_congr fun x hx => ?_
    unfold Extras.canon
    rw [Catalogue.keep_of_names (h.mood x hx)]
    rfl
  unfold canon
  rw [hadvertised, hextras]
  rfl

theorem decode_encode {cat : Catalogue} (h : cat.WellFormed) (r : Record) (aol : Bool) :
    ∃ reading, decode cat (r.encode cat aol) = .ok reading ∧ reading.Gives (r.canon cat) := by
  obtain ⟨reading, c, hread, -, -, gives⟩ := read_of_unread h aol r (Cursor.unread_ofBytes _)
  exact ⟨reading, by rw [decode, hread], gives⟩

/-- **A record off the wire comes back with its texts clipped**, and so it comes back as it was
exactly if they fit. -/
theorem decode_reencode {bytes : Bytes} {reading : Reading}
    (h : decode .standard bytes = .ok reading) (aol : Bool) :
    ∃ again, decode .standard (reading.record.encode .standard aol) = .ok again ∧
      again.unmatched = 0 ∧ again.unknown = 0 ∧ again.record = reading.record.clip ∧
      (again.record = reading.record ↔ reading.record.Fits) := by
  obtain ⟨again, hagain, gives⟩ :=
    decode_encode Catalogue.standard_wellFormed reading.record aol
  have hclip : again.record = reading.record.clip :=
    gives.record.trans (canon_of_offWire (offWire_of_decode h))
  refine ⟨again, hagain, gives.unmatched, gives.unknown, hclip, ?_⟩
  rw [hclip]
  exact clip_eq_self_iff reading.record

theorem decode_reencode_greeting :
    ∃ reading again,
      decode .standard
        [1, 97, 0, 0, 0, 1, 0, 29, 0, 16, 0, 2, 4, 12, 0, 3, 98, 98, 108, 0, 1, 0, 0, 0, 1, 120] =
          .ok reading ∧
      decode .standard (reading.record.encode .standard true) = .ok again ∧
      again.record = reading.record := by
  have hread : decode .standard
      [1, 97, 0, 0, 0, 1, 0, 29, 0, 16, 0, 2, 4, 12, 0, 3, 98, 98, 108, 0, 1, 0, 0, 0, 1, 120] =
        .ok ⟨{ handle := "a", extras := some { away := some ⟨[98, 98, 108], some "x"⟩ } }, 0, 0,
          [.blockRead "a" 1 0]⟩ := by
    decide +kernel
  obtain ⟨again, hagain, -, -, -, same⟩ := decode_reencode hread true
  refine ⟨_, again, hread, hagain, same.mpr ?_⟩
  exact
    { handle := .inl (by decide)
      away := by
        rintro x ⟨⟩ t ⟨⟩
        exact ⟨by decide, .inl (by decide)⟩
      externalLink := by
        rintro x ⟨⟩ t ⟨⟩
      profile := nofun
      awayMessage := nofun }

/-- The record whose away text has an encoding with a name of so many letters. -/
def withEncodingName (letters : Nat) : Record where
  handle := "a"
  extras := some { away := some ⟨[], some (String.ofList (List.replicate letters 'a'))⟩ }

/-- A name of 65 letters is read in full and written up to its 64th. -/
theorem not_decode_reencode_same :
    ¬ ∀ bytes reading aol, decode .standard bytes = .ok reading →
      ∃ again, decode .standard (reading.record.encode .standard aol) = .ok again ∧
        again.record = reading.record := by
  intro claim
  have hread : decode .standard
      ([1, 97, 0, 0, 0, 1, 0, 29, 0, 77, 0, 2, 4, 73, 0, 0, 0, 1, 0, 0, 0, 65] ++
        List.replicate 65 97) = .ok ⟨withEncodingName 65, 0, 0, [.blockRead "a" 1 0]⟩ := by
    decide +kernel
  have hcut : decode .standard ((withEncodingName 65).encode .standard false) =
      .ok ⟨withEncodingName 64, 0, 0, [.blockRead "a" 1 0]⟩ := by
    decide +kernel
  obtain ⟨again, hagain, same⟩ := claim _ _ false hread
  obtain rfl := Except.ok.inj (hcut.symm.trans hagain)
  revert same
  decide +kernel

end Record
end Whereabouts
