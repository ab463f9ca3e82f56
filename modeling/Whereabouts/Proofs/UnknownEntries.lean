import Whereabouts.Proofs.Extras
import Whereabouts.Proofs.Layout

/-! # Entries of unknown type

A newer client may send entries that this catalogue of types does not have.  Wherever such an
entry is put, among the counted entries, inside a block of extras or into the trailer, it is
counted and says nothing, and all that stands around it is read as before: `read_insert_unknown`.

What an entry says does not depend on where it stands, so it is enough to compare the lists of
what is said.  `Entry.CountsOneMore` compares two such lists and `Entry.CountsOneMore.surround`
puts the same entries around both. -/

namespace Whereabouts

/-! ### Types without a meaning -/

theorem find?_code_eq_none {α : Type} {code : α → UInt16} {n : UInt16} (h : ∀ a, n ≠ code a)
    (all : List α) : (all.find? fun a => code a == n) = none := by
  rw [List.find?_eq_none]
  intro a _ same
  exact h a (beq_iff_eq.mp same).symm

theorem EntryType.ofCode?_eq_none {n : UInt16} (h : ∀ known : EntryType, n ≠ known.code) :
    EntryType.ofCode? n = none :=
  find?_code_eq_none h EntryType.all

theorem ExtraType.ofCode?_eq_none {n : UInt16} (h : ∀ known : ExtraType, n ≠ known.code) :
    ExtraType.ofCode? n = none :=
  find?_code_eq_none h ExtraType.all

theorem TrailerType.ofCode?_eq_none {n : UInt16} (h : ∀ known : TrailerType, n ≠ known.code) :
    TrailerType.ofCode? n = none :=
  find?_code_eq_none h TrailerType.all

/-! ### What counted entries say -/

namespace Entry

/-- Whether two lists of entries say the same, and the second counts one more unknown field. -/
structure CountsOneMore (before after : List Entry) : Prop where
  apply : ∀ r, after.foldl Entry.apply r = before.foldl Entry.apply r
  unmatched : after.flatMap Entry.unmatched = before.flatMap Entry.unmatched
  unknown : (after.flatMap unknownTypes).length = (before.flatMap unknownTypes).length + 1

theorem CountsOneMore.surround {before after : List Entry} (h : CountsOneMore before after)
    (front back : List Entry) :
    CountsOneMore (front ++ (before ++ back)) (front ++ (after ++ back)) where
  apply := by
    intro r
    simp only [List.foldl_append, h.apply]
  unmatched := by simp only [List.flatMap_append, h.unmatched]
  unknown := by
    have := h.unknown
    simp only [List.flatMap_append, List.length_append]
    omega

variable (cat : Catalogue)

theorem countsOneMore_unknown {t : Tlv} (h : ∀ known : EntryType, t.type ≠ known.code) :
    CountsOneMore [] [ofTlv cat t.cut] := by
  have htype : EntryType.ofCode? t.cut.type = none := EntryType.ofCode?_eq_none h
  have hunknown : ofTlv cat t.cut = unknown t.type t.written.length := by
    unfold ofTlv
    rw [htype]
    rfl
  rw [hunknown]
  exact ⟨fun _ => rfl, rfl, rfl⟩

theorem countsOneMore_extras {e : ExtraEntry} (h : ∀ known : ExtraType, e.type ≠ known.code)
    (before behind : List ExtraEntry) :
    CountsOneMore [extras ((before ++ behind).map (Extra.ofEntry cat))]
      [extras ((before ++ e :: behind).map (Extra.ofEntry cat))] := by
  have hunknown : Extra.ofEntry cat e = .unknown e := by
    unfold Extra.ofEntry
    rw [ExtraType.ofCode?_eq_none h]
  refine ⟨fun r => ?_, rfl, ?_⟩
  · simp only [List.map_append, List.map_cons, hunknown, List.foldl_cons, List.foldl_nil, apply,
      List.foldl_append, Extra.apply]
  · simp only [List.map_append, List.map_cons, hunknown, List.flatMap_cons, List.flatMap_nil,
      List.append_nil, unknownTypes, List.flatMap_append, Extra.unknownTypes, List.length_append,
      List.length_cons, List.length_nil]
    omega

/-- The entry that holds a block of extras. -/
def ofExtras (entries : List ExtraEntry) : Tlv :=
  ⟨EntryType.extras.code, entries.flatMap ExtraEntry.bytes⟩

/-- Extras that declare themselves as they are, and fit an entry, are found one by one. -/
theorem ofTlv_ofExtras {entries : List ExtraEntry}
    (hdeclared : ∀ e ∈ entries, e.declared.toNat = e.body.length)
    (hroom : (entries.flatMap ExtraEntry.bytes).length ≤ Tlv.valueLimit) :
    ofTlv cat (ofExtras entries).cut = extras (entries.map (Extra.ofEntry cat)) := by
  have hcut : (ofExtras entries).cut = ofExtras entries := Tlv.cut_of_le hroom
  have htype : EntryType.ofCode? (ofExtras entries).type = some .extras :=
    EntryType.ofCode?_code .extras
  rw [hcut]
  unfold ofTlv Extra.ofBlock
  rw [htype]
  exact congrArg (fun found => extras (found.map (Extra.ofEntry cat)))
    (ExtraEntry.splitAll_flatMap hdeclared)

end Entry

/-! ### What a trailer says -/

namespace Trailer

variable {front back : Chain} {t : Tlv}

theorem ofType_insert {type : UInt16} (h : t.type ≠ type) :
    Chain.ofType (front ++ t :: back) type = Chain.ofType (front ++ back) type := by
  unfold Chain.ofType
  rw [List.filter_append, List.filter_append, List.filter_cons_of_neg]
  simpa using h

/-- An entry of unknown type is no text, no encoding and no capability block. -/
theorem ofChain_insert (cat : Catalogue) (h : ∀ known : TrailerType, t.type ≠ known.code) :
    ofChain cat (front ++ t :: back) =
      { ofChain cat (front ++ back) with
        unknownTypes := (ofChain cat front).unknownTypes ++ t.type :: (ofChain cat back).unknownTypes
      } := by
  have htext : ∀ text encoding,
      textOf (front ++ t :: back) text encoding = textOf (front ++ back) text encoding := by
    intro text encoding
    unfold textOf Chain.last?
    rw [ofType_insert (h text), ofType_insert (h encoding)]
  unfold ofChain
  simp only [htext, ofType_insert (h .capabilities), List.map_append, List.map_cons,
    List.filter_append, Trailer.mk.injEq, true_and]
  rw [List.filter_cons_of_pos]
  rw [TrailerType.ofCode?_eq_none h]
  rfl

theorem unknownTypes_append (cat : Catalogue) (front back : Chain) :
    (ofChain cat (front ++ back)).unknownTypes =
      (ofChain cat front).unknownTypes ++ (ofChain cat back).unknownTypes := by
  unfold ofChain
  rw [List.map_append, List.filter_append]

end Trailer

/-! ### Readings -/

/-- Whether two readings are the same but for one more unknown field in the second. -/
structure Reading.CountsOneMore (before after : Reading) : Prop where
  record : after.record = before.record
  unmatched : after.unmatched = before.unmatched
  unknown : after.unknown = before.unknown + 1

namespace Layout

variable {cat : Catalogue} {handle : Bytes} {warningLevel : UInt16}

/-- Counted entries may be compared by what they say, and those around them left out. -/
theorem countsOneMore_block (front before after back trailer : Chain)
    (h : Entry.CountsOneMore ((before.map Tlv.cut).map (Entry.ofTlv cat))
      ((after.map Tlv.cut).map (Entry.ofTlv cat))) :
    Reading.CountsOneMore (reading cat ⟨handle, warningLevel, front ++ (before ++ back), trailer⟩)
      (reading cat ⟨handle, warningLevel, front ++ (after ++ back), trailer⟩) := by
  have hentries : Entry.CountsOneMore
      (entries cat ⟨handle, warningLevel, front ++ (before ++ back), trailer⟩)
      (entries cat ⟨handle, warningLevel, front ++ (after ++ back), trailer⟩) := by
    unfold entries
    simp only [List.map_append]
    exact h.surround _ _
  refine ⟨?_, ?_, ?_⟩
  · rw [record_reading, record_reading, record_blockReading, record_blockReading]
    exact congrArg (Trailer.apply · _) (hentries.apply _)
  · rw [unmatched_reading, unmatched_reading, unmatched_blockReading, unmatched_blockReading,
      hentries.unmatched]
    rfl
  · rw [unknown_reading, unknown_reading, unknown_blockReading, unknown_blockReading,
      hentries.unknown]
    exact Nat.add_right_comm _ 1 _

theorem countsOneMore_trailer {block front back : Chain} {t : Tlv}
    (h : ∀ known : TrailerType, t.type ≠ known.code) :
    Reading.CountsOneMore (reading cat ⟨handle, warningLevel, block, front ++ back⟩)
      (reading cat ⟨handle, warningLevel, block, front ++ t :: back⟩) := by
  have hsaid : said cat ⟨handle, warningLevel, block, front ++ t :: back⟩ =
      { said cat ⟨handle, warningLevel, block, front ++ back⟩ with
        unknownTypes := (Trailer.ofChain cat (front.map Tlv.cut)).unknownTypes ++
          t.type :: (Trailer.ofChain cat (back.map Tlv.cut)).unknownTypes } := by
    unfold said
    rw [List.map_append, List.map_append, List.map_cons]
    exact Trailer.ofChain_insert cat h
  have hbefore : (said cat ⟨handle, warningLevel, block, front ++ back⟩).unknownTypes =
      (Trailer.ofChain cat (front.map Tlv.cut)).unknownTypes ++
        (Trailer.ofChain cat (back.map Tlv.cut)).unknownTypes := by
    unfold said
    rw [List.map_append]
    exact Trailer.unknownTypes_append cat _ _
  refine ⟨?_, ?_, ?_⟩
  · rw [record_reading, record_reading, hsaid]
    rfl
  · rw [unmatched_reading, unmatched_reading, hsaid]
    rfl
  · rw [unknown_reading, unknown_reading, hsaid, hbefore]
    simp only [List.length_append, List.length_cons]
    exact congrArg (_ + ·) (Nat.add_assoc _ _ 1).symm

/-- Whether two records on the wire are read alike, but for one more unknown field in the
second, wherever in a buffer they begin. -/
def ReadsOneMore (cat : Catalogue) (before after : Layout) : Prop :=
  ∀ c c' : Cursor, c.unread = before.bytes → c'.unread = after.bytes →
    ∃ reading reading' d d', Record.read cat c = .ok reading d ∧
      Record.read cat c' = .ok reading' d' ∧ reading.CountsOneMore reading'

theorem readsOneMore {before after : Layout} (hbefore : before.block.length ≤ 65535)
    (hafter : after.block.length ≤ 65535)
    (h : (before.reading cat).CountsOneMore (after.reading cat)) :
    before.ReadsOneMore cat after := by
  intro c c' hc hc'
  obtain ⟨d, hread, -, -⟩ := read_of_unread cat hbefore hc
  obtain ⟨d', hread', -, -⟩ := read_of_unread cat hafter hc'
  exact ⟨_, _, d, d', hread, hread', h⟩

/-- **An entry of unknown type changes nothing but a count**, whether it is put among the counted
entries, into a block of extras or into the trailer, and whatever stands before and behind it. -/
theorem read_insert_unknown (cat : Catalogue) (handle : Bytes) (warningLevel : UInt16) :
    (∀ (front back trailer : Chain) (t : Tlv), (∀ known : EntryType, t.type ≠ known.code) →
      (front ++ t :: back).length ≤ 65535 →
      ReadsOneMore cat ⟨handle, warningLevel, front ++ back, trailer⟩
        ⟨handle, warningLevel, front ++ t :: back, trailer⟩) ∧
    (∀ (front back trailer : Chain) (before behind : List ExtraEntry) (e : ExtraEntry),
      (∀ known : ExtraType, e.type ≠ known.code) →
      (∀ x ∈ before ++ e :: behind, x.declared.toNat = x.body.length) →
      ((before ++ e :: behind).flatMap ExtraEntry.bytes).length ≤ 65535 →
      (front ++ Entry.ofExtras (before ++ e :: behind) :: back).length ≤ 65535 →
      ReadsOneMore cat
        ⟨handle, warningLevel, front ++ Entry.ofExtras (before ++ behind) :: back, trailer⟩
        ⟨handle, warningLevel, front ++ Entry.ofExtras (before ++ e :: behind) :: back, trailer⟩) ∧
    ∀ (block front back : Chain) (t : Tlv), (∀ known : TrailerType, t.type ≠ known.code) →
      block.length ≤ 65535 →
      ReadsOneMore cat ⟨handle, warningLevel, block, front ++ back⟩
        ⟨handle, warningLevel, block, front ++ t :: back⟩ := by
  refine ⟨?_, ?_, ?_⟩
  · intro front back trailer t hunknown hcount
    have hfewer : (front ++ back).length ≤ 65535 := by
      simp only [List.length_append, List.length_cons] at hcount ⊢
      omega
    exact readsOneMore hfewer hcount
      (countsOneMore_block front [] [t] back trailer (Entry.countsOneMore_unknown cat hunknown))
  · intro front back trailer before behind e hunknown hdeclared hroom hcount
    have hsub : ∀ x ∈ before ++ behind, x ∈ before ++ e :: behind := by
      intro x hx
      exact List.mem_append.mpr ((List.mem_append.mp hx).imp id (List.mem_cons_of_mem e))
    have hfewer : ((before ++ behind).flatMap ExtraEntry.bytes).length ≤ 65535 := by
      simp only [List.flatMap_append, List.flatMap_cons, List.length_append] at hroom ⊢
      omega
    have hsaid := Entry.countsOneMore_extras cat hunknown before behind
    rw [← Entry.ofTlv_ofExtras cat hdeclared hroom,
      ← Entry.ofTlv_ofExtras cat (fun x hx => hdeclared x (hsub x hx)) hfewer] at hsaid
    have hcount' : (front ++ Entry.ofExtras (before ++ behind) :: back).length ≤ 65535 := by
      rw [List.length_append, List.length_cons] at hcount ⊢
      exact hcount
    exact readsOneMore hcount' hcount (countsOneMore_block front [_] [_] back trailer hsaid)
  · intro block front back t hunknown hcount
    exact readsOneMore hcount hcount (countsOneMore_trailer hunknown)

/-- A user with a mood, an idle time and a profile. -/
def idle : Layout where
  handle := [104, 105]
  warningLevel := 0
  block := [Entry.ofExtras [⟨0x000E, 0, 8, Utf8.encode "icqmood8"⟩], ⟨0x0004, [0, 7]⟩]
  trailer := [⟨0x0002, [112]⟩]

/-- What is read of this user. -/
def idleRecord : Record where
  handle := "hi"
  idleMinutes := some 7
  extras := some { mood := some ⟨8, by decide⟩ }
  profile := some ⟨[112], none⟩

/-- This user once with an unknown entry in front of the idle time, once with one behind the mood
and once with one in front of the profile. -/
theorem read_insert_unknown_idle :
    ∀ after ∈ [
      { idle with block :=
          [Entry.ofExtras [⟨0x000E, 0, 8, Utf8.encode "icqmood8"⟩], ⟨0x7777, [9]⟩,
            ⟨0x0004, [0, 7]⟩] },
      { idle with block :=
          [Entry.ofExtras [⟨0x000E, 0, 8, Utf8.encode "icqmood8"⟩, ⟨0x8888, 0, 1, [9]⟩],
            ⟨0x0004, [0, 7]⟩] },
      { idle with trailer := [⟨0x9999, [9]⟩, ⟨0x0002, [112]⟩] }],
      ∃ reading c, Record.read .standard (.ofBytes after.bytes) = .ok reading c ∧
        reading.record = idleRecord ∧ reading.unknown = 1 := by
  have hplain : ∃ c, Record.read .standard (.ofBytes idle.bytes) =
      .ok ⟨idleRecord, 0, 0, [.blockRead "hi" 2 0]⟩ c := by
    exact ⟨_, rfl⟩
  have hmore : ∀ after, ReadsOneMore .standard idle after →
      ∃ reading c, Record.read .standard (.ofBytes after.bytes) = .ok reading c ∧
        reading.record = idleRecord ∧ reading.unknown = 1 := by
    intro after h
    obtain ⟨c, hplain⟩ := hplain
    obtain ⟨reading, reading', d, d', hread, hread', hcounts⟩ :=
      h _ _ (Cursor.unread_ofBytes _) (Cursor.unread_ofBytes _)
    obtain ⟨rfl, -⟩ := EStateM.Result.ok.inj (hplain.symm.trans hread)
    exact ⟨reading', d', hread', hcounts.record, hcounts.unknown⟩
  obtain ⟨hblock, hextras, htrailer⟩ := read_insert_unknown .standard [104, 105] 0
  simp only [List.forall_mem_cons]
  refine ⟨hmore _ ?_, hmore _ ?_, hmore _ ?_, List.forall_mem_nil _⟩
  · exact hblock [_] [_] [_] ⟨0x7777, [9]⟩ (by intro known; cases known <;> decide) (by decide)
  · exact hextras [] [_] [_] [_] [] ⟨0x8888, 0, 1, [9]⟩ (by intro known; cases known <;> decide)
      (by decide) (by decide) (by decide)
  · exact htrailer [_, _] [] [_] ⟨0x9999, [9]⟩ (by intro known; cases known <;> decide) (by decide)

end Layout
end Whereabouts
