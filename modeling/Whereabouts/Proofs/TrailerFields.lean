import Whereabouts.Proofs.Checked.Records
import Whereabouts.Proofs.CountedBlock

/-! # What a trailer adds to a block

Behind the counted block may stand any octets.  `Reading.ContinuesTo` says of each part of a reading
where among the entries of the trailer it comes from: a text is that of the last entry of its type,
its encoding is that of the last entry of another type, before it or behind it, and every capability
block counts once.  What the block said of all else is kept.

`Record.read_continued` finds these in every record.  The capability blocks are looked for one by
one, by their number, until there is none; a machine that does so ends with the same.

A trailer need not end where its last entry ends.  `Record.read_stops` says what is left unread: up
to three octets, as no header fits in so few. -/

namespace Whereabouts

/-! ### What the entries of a trailer say -/

namespace Tlv

/-- The value of an entry of a type. -/
def valueOf? (type : TrailerType) (t : Tlv) : Option Bytes :=
  if t.type = type.code then some t.value else none

/-- Whether the type of an entry is not one of those that a trailer may have. -/
def isForeign (t : Tlv) : Bool := t.type < 1 || 5 < t.type

end Tlv

namespace Chain

/-- The text of a trailer: the last of its type, with the last encoding of another type. -/
def lastText? (text encoding : TrailerType) (c : Chain) : Option Text :=
  (latest? (Tlv.valueOf? text) c).map fun bytes =>
    ⟨bytes, (latest? (Tlv.valueOf? encoding) c).map Utf8.decodeLossy⟩

/-- The identifiers in all capability blocks of a trailer. -/
def trailerIdentifiers (c : Chain) : List Bytes :=
  c.parts TrailerType.capabilities.code Identifier.width

end Chain

/-- Whether a block and the entries of a trailer say together what another reading says. -/
structure Reading.ContinuesTo (cat : Catalogue) (c : Chain) (block r : Reading) : Prop where
  profile : r.record.profile = c.lastText? .profile .profileEncoding
  awayMessage : r.record.awayMessage = c.lastText? .awayMessage .awayEncoding
  advertised : r.record.advertised.isSome =
    (block.record.advertised.isSome || c.has TrailerType.capabilities.code)
  features : r.record.features =
    block.record.features.union (cat.featuresOf c.trailerIdentifiers [])
  /-- The icon of the block comes before those of the trailer. -/
  icon : r.record.advertised.bind Advertised.icon =
    (block.record.advertised.bind Advertised.icon).or (c.trailerIdentifiers.findSome? cat.icon?)
  others : r.record = { block.record with
    profile := r.record.profile
    awayMessage := r.record.awayMessage
    advertised := r.record.advertised }
  unmatched : r.unmatched = block.unmatched + c.trailerIdentifiers.countP cat.isMiss
  unknown : r.unknown = block.unknown + c.countP Tlv.isForeign

section alike

variable {cat : Catalogue} {c : Chain} {block r r' : Reading}

theorem Reading.ContinuesTo.unique (h : block.ContinuesTo cat c r)
    (h' : block.ContinuesTo cat c r') : r.Alike r' := by
  have hadvertised : r.record.advertised = r'.record.advertised := by
    rw [Record.advertised_eq r.record, Record.advertised_eq r'.record, h.advertised, h'.advertised,
      h.features, h'.features, h.icon, h'.icon]
  refine ⟨?_, h.unmatched.trans h'.unmatched.symm, h.unknown.trans h'.unknown.symm⟩
  rw [h.others, h'.others, hadvertised, h.profile, h'.profile, h.awayMessage, h'.awayMessage]

theorem Reading.ContinuesTo.of_alike (h : block.ContinuesTo cat c r') (hr : r.Alike r') :
    block.ContinuesTo cat c r where
  profile := hr.record ▸ h.profile
  awayMessage := hr.record ▸ h.awayMessage
  advertised := hr.record ▸ h.advertised
  features := hr.record ▸ h.features
  icon := hr.record ▸ h.icon
  others := hr.record ▸ h.others
  unmatched := hr.unmatched ▸ h.unmatched
  unknown := hr.unknown ▸ h.unknown

end alike

/-! ### Looking for entries -/

namespace Chain

variable (c : Chain)

theorem latest?_valueOf? (type : TrailerType) :
    latest? (Tlv.valueOf? type) c = (c.last? type.code).map Tlv.value := by
  unfold last? ofType Tlv.valueOf?
  induction c using List.reverseRecOn with
  | nil => rfl
  | append_singleton c t ih =>
      rw [latest?_concat, ih, List.filter_append, List.getLast?_append]
      by_cases h : t.type = type.code <;> simp [h]

theorem textOf_eq (text encoding : TrailerType) :
    Trailer.textOf c text encoding = c.lastText? text encoding := by
  unfold Trailer.textOf lastText?
  rw [latest?_valueOf?, latest?_valueOf?, Option.map_map, Option.map_map]
  rfl

/-- The known types of a trailer are the numbers from one to five. -/
theorem length_unknownTypes (cat : Catalogue) :
    (Trailer.ofChain cat c).unknownTypes.length = c.countP Tlv.isForeign := by
  have hforeign : ∀ t : Tlv, (TrailerType.ofCode? t.type).isNone = t.isForeign := by
    intro t
    refine Keyed.isNone_find?.trans (Bool.eq_iff_iff.mpr ?_)
    simp only [TrailerType.all, TrailerType.code, List.map_cons, List.map_nil, List.mem_cons,
      List.not_mem_nil, or_false, not_or, Tlv.isForeign, Bool.or_eq_true, decide_eq_true_eq,
      UInt16.lt_iff_toNat_lt, ← UInt16.toNat_inj, UInt16.reduceToNat]
    omega
  unfold Trailer.ofChain
  dsimp only
  rw [← List.countP_eq_length_filter, List.countP_map]
  exact congrArg (fun p => List.countP p c) (funext hforeign)

end Chain

/-! ### The capability blocks -/

section blocks

variable (cat : Catalogue) (blocks : List Tlv)

theorem Catalogue.unions_features_scan :
    Features.unions (blocks.map fun t => (cat.scan t.value).features) =
      cat.featuresOf (blocks.flatMap fun t => Bytes.pieces Identifier.width t.value) [] := by
  apply Features.ext_has
  intro i
  unfold featuresOf
  rw [List.filterMap_nil, List.append_nil, List.filterMap_flatMap, Features.has_unions,
    Features.has_unions, List.any_flatMap, List.any_map]
  congr 1
  funext t
  exact Features.has_unions _ i

theorem Catalogue.findSome?_icon_scan :
    blocks.findSome? (fun t => (cat.scan t.value).icon) =
      (blocks.flatMap fun t => Bytes.pieces Identifier.width t.value).findSome? cat.icon? := by
  induction blocks with
  | nil => rfl
  | cons t blocks ih =>
      rw [List.findSome?_cons, List.flatMap_cons, List.findSome?_append, ih]
      unfold scan
      dsimp only
      cases (Bytes.pieces Identifier.width t.value).findSome? cat.icon? <;> rfl

theorem Catalogue.length_flatMap_unmatched_scan :
    (blocks.flatMap fun t => (cat.scan t.value).unmatched).length =
      (blocks.flatMap fun t => Bytes.pieces Identifier.width t.value).countP cat.isMiss := by
  rw [List.length_flatMap, List.countP_flatMap]
  simp only [cat.length_unmatched_scan]
  rfl

variable (scan : Tlv → Scan) (r : Record)

theorem Record.isSome_advertised_foldl_addScan :
    (blocks.foldl (fun r t => r.addScan (scan t)) r).advertised.isSome =
      (r.advertised.isSome || blocks.any fun _ => true) :=
  field_foldl_any r (fun r => r.advertised.isSome) fun _ _ => (Bool.or_true _).symm

theorem Record.features_foldl_addScan :
    (blocks.foldl (fun r t => r.addScan (scan t)) r).features =
      r.features.union (.unions (blocks.map fun t => (scan t).features)) :=
  field_foldl_union r features fun r t => features_addScan r (scan t)

theorem Record.icon_foldl_addScan :
    (blocks.foldl (fun r t => r.addScan (scan t)) r).advertised.bind Advertised.icon =
      (r.advertised.bind Advertised.icon).or (blocks.findSome? fun t => (scan t).icon) :=
  field_foldl_first r (fun r => r.advertised.bind Advertised.icon)
    fun r t => icon_addScan r (scan t)

end blocks

/-! ### Reading a trailer -/

/-- The entries of a trailer. -/
def Chain.trailer (bytes : Bytes) : Chain := .ofFound (split bytes.length bytes).1

theorem Reading.continuesTo_addTrailer (cat : Catalogue) {block : Reading}
    (hprofile : block.record.profile = none) (haway : block.record.awayMessage = none)
    (found : List Tlv.Found) :
    block.ContinuesTo cat (.ofFound found) (block.addTrailer cat found) := by
  have hrecord : (block.addTrailer cat found).record =
      ((Chain.ofFound found).ofType TrailerType.capabilities.code).foldl
        (fun r t => r.addScan (cat.scan t.value))
        { block.record with
          profile := (Chain.ofFound found).lastText? .profile .profileEncoding
          awayMessage := (Chain.ofFound found).lastText? .awayMessage .awayEncoding } := by
    unfold addTrailer Trailer.apply Trailer.ofChain
    dsimp only
    rw [hprofile, haway, Option.or_none, Option.or_none, List.foldl_map, Chain.textOf_eq,
      Chain.textOf_eq]
  have hothers := hrecord
  rw [← List.foldl_map, Record.foldl_addScan] at hothers
  refine
    { profile := by rw [hothers]
      awayMessage := by rw [hothers]
      advertised := ?_
      features := ?_
      icon := ?_
      others := by rw [hothers]
      unmatched := ?_
      unknown := congrArg (block.unknown + ·) (Chain.length_unknownTypes _ cat) }
  · rw [hrecord, Record.isSome_advertised_foldl_addScan]
    unfold Chain.ofType Chain.has
    rw [List.any_filter]
    simp only [Bool.and_true]
  · rw [hrecord, Record.features_foldl_addScan, Catalogue.unions_features_scan]
    rfl
  · rw [hrecord, Record.icon_foldl_addScan, Catalogue.findSome?_icon_scan]
    rfl
  · refine congrArg (block.unmatched + ·) ?_
    unfold Trailer.unmatched Trailer.ofChain
    dsimp only
    rw [List.flatMap_map]
    exact Catalogue.length_flatMap_unmatched_scan cat _

namespace Record

variable {cat : Catalogue} {block : Reading} {c c₁ : Cursor}

/-- **Behind a block a trailer adds what its entries say**, whatever its octets are, and nothing
else.  A machine that looks for the capability blocks one by one ends with the same. -/
theorem read_continued (h : readBlock cat c = .ok block c₁) :
    ∃ reading c', read cat c = .ok reading c' ∧
      (∀ r, block.ContinuesTo cat (Chain.trailer c₁.unread) r ↔ r.Alike reading) ∧
      (c.Addressable → Checked.Runs (Checked.read cat) c reading c') := by
  obtain ⟨handle, warningLevel, chain, hblock⟩ := Reading.saidBy_of_readBlock h
  obtain ⟨c', hread, -, -⟩ := read_of_readBlock h
  have hsaid := Reading.continuesTo_addTrailer cat hblock.fields.profile hblock.fields.awayMessage
    (Chain.split c₁.unread.length c₁.unread).1
  exact ⟨_, c', hread, fun r => ⟨fun hr => hr.unique hsaid, hsaid.of_alike⟩,
    fun hc => (Checked.follows_read cat c hc).runs hread⟩

/-- A record with two profiles and an encoding between them, the encoding of an away message that is
missing, two capability blocks and an entry of unknown type. -/
def twoProfiles : Bytes :=
  [1, 97, 0, 0, 0, 0, 0, 2, 0, 1, 120, 0, 1, 0, 1, 117, 0, 2, 0, 1, 121, 0, 3, 0, 1, 118,
    0, 5, 0, 0, 0, 5, 0, 16, 0, 0, 0, 0, 0, 0, 0, 0, 0, 0, 0, 0, 0, 0, 0, 0, 0, 9, 0, 0]

theorem read_continued_twoProfiles :
    ∃ reading c, read .standard (.ofBytes twoProfiles) = .ok reading c ∧
      reading.record.profile = some ⟨[121], some "u"⟩ ∧ reading.record.awayMessage = none ∧
      reading.record.advertised.isSome ∧ reading.unmatched = 1 ∧ reading.unknown = 1 ∧
      Checked.Runs (Checked.read .standard) (.ofBytes twoProfiles) reading c := by
  have hblock : readBlock .standard (.ofBytes twoProfiles) =
      .ok ⟨{ handle := "a" }, 0, 0, [.blockRead "a" 0 0]⟩ ⟨twoProfiles, 6, by decide⟩ := by
    rfl
  obtain ⟨reading, c, hread, hsaid, hruns⟩ := read_continued hblock
  have haddressable : (Cursor.ofBytes twoProfiles).Addressable := by
    unfold Cursor.Addressable
    decide
  have hr := (hsaid reading).mpr ⟨rfl, rfl, rfl⟩
  exact ⟨reading, c, hread, hr.profile.trans (by rfl), hr.awayMessage.trans (by rfl),
    hr.advertised.trans (by rfl), hr.unmatched.trans (by decide +kernel), hr.unknown.trans (by rfl),
    hruns haddressable⟩

end Record

/-! ### Where a read ends -/

namespace Chain

/-- Where the entries at the front of some octets end: before a tail that is too short for a
header. -/
inductive StopsAt : Bytes → Bytes → Prop
  | tail {bytes : Bytes} (short : bytes.length < Tlv.headerSize) : StopsAt bytes bytes
  | entry {a b m n : UInt8} {rest left : Bytes}
      (behind : StopsAt (rest.drop (Bytes.word16 m n).toNat) left) :
      StopsAt (a :: b :: m :: n :: rest) left

variable {bytes left left' : Bytes}

theorem StopsAt.length_lt (h : StopsAt bytes left) : left.length < Tlv.headerSize := by
  induction h with
  | tail short => exact short
  | entry _ ih => exact ih

theorem StopsAt.unique (h : StopsAt bytes left) (h' : StopsAt bytes left') : left = left' := by
  induction h with
  | tail short =>
      cases h' with
      | tail _ => rfl
      | entry _ =>
          simp only [List.length_cons, Tlv.headerSize] at short
          omega
  | entry _ ih =>
      cases h' with
      | tail short =>
          simp only [List.length_cons, Tlv.headerSize] at short
          omega
      | entry behind => exact ih behind

/-- With room for all octets an entry gets what it declares, as far as it is there. -/
theorem split?_cons (a b m n : UInt8) (rest : Bytes) :
    Tlv.split? (rest.length + Tlv.headerSize) (a :: b :: m :: n :: rest) =
      some (⟨Bytes.word16 a b, Bytes.word16 m n, rest.take (Bytes.word16 m n).toNat⟩,
        rest.drop (Bytes.word16 m n).toNat) := by
  rw [Tlv.split?_header (Nat.le_add_left _ _), Nat.add_sub_cancel]
  rcases Nat.le_total (Bytes.word16 m n).toNat rest.length with hfits | hover
  · rw [Nat.min_eq_left hfits]
  · rw [Nat.min_eq_right hover, List.take_of_length_le (Nat.le_refl _), List.take_of_length_le hover,
      List.drop_of_length_le (Nat.le_refl _), List.drop_of_length_le hover]

theorem stopsAt_splitAfter {count : Nat} (done : List Tlv.Found) (h : bytes.length ≤ count) :
    StopsAt bytes (splitAfter count bytes.length done bytes).2 := by
  induction count generalizing bytes done with
  | zero =>
      obtain rfl := List.length_eq_zero_iff.mp (Nat.le_zero.mp h)
      exact .tail (by decide)
  | succ count ih =>
      match bytes with
      | a :: b :: m :: n :: rest =>
          -- Octets and room shrink alike, so there is always room for all octets.
          have hroom : rest.length + Tlv.headerSize -
              (Tlv.headerSize + (rest.take (Bytes.word16 m n).toNat).length) =
              (rest.drop (Bytes.word16 m n).toNat).length := by
            rw [List.length_take, List.length_drop]
            omega
          have hcount : (rest.drop (Bytes.word16 m n).toNat).length ≤ count := by
            rw [List.length_drop]
            simp only [List.length_cons] at h
            omega
          show StopsAt _ (splitAfter (count + 1) (rest.length + Tlv.headerSize) done _).2
          rw [splitAfter, split?_cons]
          dsimp only
          rw [hroom]
          exact .entry (ih _ hcount)
      | [] | [_] | [_, _] | [_, _, _] => exact .tail (by simp [Tlv.headerSize])

theorem stopsAt_split (bytes : Bytes) : StopsAt bytes (split bytes.length bytes).2 :=
  stopsAt_splitAfter [] (Nat.le_refl _)

end Chain

namespace Record

variable {cat : Catalogue} {reading : Reading} {c c' : Cursor}

/-- **A read ends less than a header before the end**: behind the block it takes all entries, and
leaves a tail that is too short for one more. -/
theorem read_stops (h : read cat c = .ok reading c') :
    ∃ block c₁, readBlock cat c = .ok block c₁ ∧
      (∀ left, Chain.StopsAt c₁.unread left ↔ left = c'.unread) ∧
      c'.remaining < Tlv.headerSize ∧ (c'.remaining = 0 ↔ Chain.StopsAt c₁.unread []) := by
  obtain ⟨block, c₁, hblock, -⟩ := Reader.bind_inv h
  obtain ⟨d, hread, hleft, -⟩ := read_of_readBlock hblock
  obtain ⟨-, rfl⟩ := EStateM.Result.ok.inj (h.symm.trans hread)
  have hstops : Chain.StopsAt c₁.unread c'.unread := hleft ▸ Chain.stopsAt_split c₁.unread
  have hall : ∀ left, Chain.StopsAt c₁.unread left ↔ left = c'.unread :=
    fun left => ⟨fun hl => hl.unique hstops, fun hl => hl ▸ hstops⟩
  refine ⟨block, c₁, hblock, hall, ?_, ?_⟩
  · rw [← Cursor.length_unread]
    exact hstops.length_lt
  · rw [hall, Cursor.remaining_eq_zero_iff, eq_comm]

/-- An octet behind the block stays unread. -/
theorem read_stops_short :
    ∃ reading c, read .standard (.ofBytes [1, 97, 0, 0, 0, 0, 7]) = .ok reading c ∧
      c.unread = [7] := by
  obtain ⟨reading, c, hread⟩ : ∃ reading c,
      read .standard (.ofBytes [1, 97, 0, 0, 0, 0, 7]) = .ok reading c := ⟨_, _, rfl⟩
  obtain ⟨block, c₁, hblock, hstops, -, -⟩ := read_stops hread
  have hunread : c₁.unread = [7] := by
    obtain ⟨-, rfl⟩ := EStateM.Result.ok.inj (hblock.symm.trans rfl)
    rfl
  refine ⟨reading, c, hread, ?_⟩
  rw [hunread] at hstops
  exact ((hstops [7]).mp (.tail (by decide))).symm

/-- A read need not end at the end. -/
theorem not_read_to_end :
    ¬ ∀ (cat : Catalogue) (c c' : Cursor) (reading : Reading),
      read cat c = .ok reading c' → c'.remaining = 0 := by
  intro h
  have hend := h .standard (.ofBytes [1, 97, 0, 0, 0, 0, 7]) _ _ rfl
  exact absurd hend (by decide)

end Record
end Whereabouts
