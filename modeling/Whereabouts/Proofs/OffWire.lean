import Whereabouts.Proofs.Catalogue
import Whereabouts.Proofs.Chain
import Whereabouts.Proofs.Readings

/-! # What a record off the wire can say

Whatever octets a record was read from, its features are those of rows of the catalogue, its
icons name rows, and the texts of its trailer fit an entry: `Record.OffWire`.  Each entry of the
wire keeps this (`OffWire.apply`), so every reading ends in it (`offWire_of_decode`). -/

namespace Whereabouts

/-! ### Features and icons -/

namespace Catalogue

variable {cat : Catalogue}

/-- Whether a set of features is put together from rows. -/
def Spans (cat : Catalogue) (f : Features) : Prop :=
  ∃ sets : List Features, (∀ s ∈ sets, s ∈ cat.capabilities.map Capability.features) ∧
    f = .unions sets

/-- Whether an icon, if there is one, names a row. -/
def Names (cat : Catalogue) (icon : Option Icon) : Prop :=
  ∀ i ∈ icon, i.index.toNat < cat.icons.length

theorem spans_unions {sets : List Features}
    (h : ∀ s ∈ sets, s ∈ cat.capabilities.map Capability.features) : cat.Spans (.unions sets) :=
  ⟨sets, h, rfl⟩

theorem spans_none : cat.Spans .none := ⟨[], fun _ h => (List.not_mem_nil h).elim, rfl⟩

theorem Spans.union {a b : Features} (ha : cat.Spans a) (hb : cat.Spans b) :
    cat.Spans (a.union b) := by
  obtain ⟨sets, hsets, rfl⟩ := ha
  obtain ⟨sets', hsets', rfl⟩ := hb
  refine ⟨sets ++ sets', fun s hs => (List.mem_append.mp hs).elim (hsets s) (hsets' s), ?_⟩
  rw [← Features.foldl_union, Features.unions, Features.unions, List.foldl_append]

/-- The rows that a set is put together from stand for all of it. -/
theorem known_of_spans {f : Features} (h : cat.Spans f) : cat.known f = f := by
  obtain ⟨sets, hsets, rfl⟩ := h
  refine known_eq_self fun i hi => ?_
  rw [Features.has_unions, List.any_eq_true] at hi
  obtain ⟨set, hset, hi⟩ := hi
  obtain ⟨row, hrow, rfl⟩ := List.mem_map.mp (hsets set hset)
  refine ⟨row, hrow, ?_, hi⟩
  rw [Features.includes_iff]
  intro j hj
  rw [Features.has_unions, List.any_eq_true]
  exact ⟨row.features, hset, hj⟩

theorem keep_of_names {icon : Option Icon} (h : cat.Names icon) : cat.keep icon = icon := by
  cases icon with
  | none => rfl
  | some icon => rw [keep, Option.filter_some, if_pos (decide_eq_true (h icon rfl))]

theorem Names.or {a b : Option Icon} (ha : cat.Names a) (hb : cat.Names b) :
    cat.Names (a.or b) := by
  cases a with
  | none => exact hb
  | some icon => exact ha

theorem names_findIcon? (cat : Catalogue) (test : IconRow → Bool) :
    cat.Names (cat.findIcon? test) := by
  intro icon hicon
  obtain ⟨row, hrow, -⟩ := (findIcon?_eq_some_iff.mp hicon).row
  exact (List.getElem?_eq_some_iff.mp hrow).1

end Catalogue

/-- Whether a scan says only what rows stand for. -/
structure Scan.OffWire (cat : Catalogue) (s : Scan) : Prop where
  features : cat.Spans s.features
  icon : cat.Names s.icon

namespace Catalogue

theorem spans_found (cat : Catalogue) (test : Bytes → Capability → Bool) (ids : List Bytes) :
    cat.Spans (.unions (ids.filterMap fun id =>
      (cat.capabilities.find? (test id)).map Capability.features)) := by
  refine spans_unions fun s hs => ?_
  obtain ⟨id, -, hid⟩ := List.mem_filterMap.mp hs
  obtain ⟨row, hrow, rfl⟩ := Option.map_eq_some_iff.mp hid
  exact List.mem_map_of_mem (List.mem_of_find?_eq_some hrow)

theorem offWire_scan (cat : Catalogue) (block : Bytes) : (cat.scan block).OffWire cat where
  features := cat.spans_found (fun id row => row.id.bytes == id) _
  icon := by
    intro icon hicon
    obtain ⟨id, -, hid⟩ := List.exists_of_findSome?_eq_some hicon
    exact names_findIcon? cat _ icon hid

theorem offWire_scanShort (cat : Catalogue) (block : Bytes) :
    (cat.scanShort block).OffWire cat where
  features := cat.spans_found (fun id row => row.id.short == id) _
  icon := nofun

end Catalogue

/-! ### Values -/

namespace Chain

theorem length_value_of_mem_splitAfter {count room : Nat} {done : List Tlv.Found} {bytes : Bytes}
    (hdone : ∀ f ∈ done, f.value.length ≤ 65535) :
    ∀ f ∈ (splitAfter count room done bytes).1, f.value.length ≤ 65535 := by
  induction count generalizing room done bytes with
  | zero => exact fun f hf => hdone f (List.mem_reverse.mp hf)
  | succ count ih =>
      unfold splitAfter
      split
      · exact fun f hf => hdone f (List.mem_reverse.mp hf)
      · rename_i found rest hsplit
        exact ih (List.forall_mem_cons.mpr ⟨Tlv.length_value_of_split? hsplit, hdone⟩)

theorem length_value_of_mem_split {room : Nat} {bytes : Bytes} {t : Tlv}
    (h : t ∈ ofFound (split room bytes).1) : t.value.length ≤ 65535 := by
  obtain ⟨f, hf, rfl⟩ := List.mem_map.mp h
  exact length_value_of_mem_splitAfter (fun _ h => (List.not_mem_nil h).elim) f hf

end Chain

/-! ### Entries -/

namespace Extra

variable {cat : Catalogue}

/-- Whether an entry of the extras names only icons of rows. -/
def OffWire (cat : Catalogue) : Extra → Prop
  | mood icon => cat.Names (some icon)
  | _ => True

theorem offWire_ofEntry (cat : Catalogue) (entry : ExtraEntry) :
    (ofEntry cat entry).OffWire cat := by
  unfold ofEntry
  split
  · split <;> trivial
  · trivial
  · trivial
  · dsimp only
    split_ifs
    · trivial
    · split
      · rename_i icon hicon
        rw [OffWire, ← hicon]
        exact Catalogue.names_findIcon? cat _
      · trivial
  · trivial

theorem names_foldl_apply {entries : List Extra} {x : Extras} (hx : cat.Names x.mood)
    (he : ∀ e ∈ entries, e.OffWire cat) : cat.Names (entries.foldl apply x).mood := by
  induction entries generalizing x with
  | nil => exact hx
  | cons e entries ih =>
      obtain ⟨he, hrest⟩ := List.forall_mem_cons.mp he
      refine ih ?_ hrest
      cases e with
      | mood icon => exact he
      | _ => exact hx

end Extra

namespace Entry

/-- Whether an entry says only what rows stand for. -/
def OffWire (cat : Catalogue) : Entry → Prop
  | capabilities scan | shortCapabilities scan => scan.OffWire cat
  | extras entries => ∀ e ∈ entries, e.OffWire cat
  | _ => True

theorem offWire_ofTlv (cat : Catalogue) (t : Tlv) : (ofTlv cat t).OffWire cat := by
  cases htype : EntryType.ofCode? t.type with
  | none =>
      simp only [ofTlv, htype]
      trivial
  | some type =>
      cases type <;> simp only [ofTlv, htype]
      case capabilities => exact cat.offWire_scan t.value
      case shortCapabilities => exact cat.offWire_scanShort t.value
      case extras =>
        intro e he
        obtain ⟨entry, -, rfl⟩ := List.mem_map.mp he
        exact Extra.offWire_ofEntry cat entry
      case userClass | idleMinutes => exact holds_ofWord16 trivial t fun _ => trivial
      all_goals exact holds_ofWord32 trivial t fun _ => trivial

end Entry

/-! ### Records -/

/-- What is true of every record that was read. -/
structure Record.OffWire (cat : Catalogue) (r : Record) : Prop where
  features : ∀ a ∈ r.advertised, cat.Spans a.features
  icon : ∀ a ∈ r.advertised, cat.Names a.icon
  mood : ∀ x ∈ r.extras, cat.Names x.mood
  profile : ∀ t ∈ r.profile, t.bytes.length ≤ 65535
  awayMessage : ∀ t ∈ r.awayMessage, t.bytes.length ≤ 65535

namespace Record.OffWire

variable {cat : Catalogue} {r : Record}

theorem bare (handle : String) (warningLevel : UInt16) :
    ({ handle, warningLevel } : Record).OffWire cat :=
  ⟨nofun, nofun, nofun, nofun, nofun⟩

theorem addScan (h : r.OffWire cat) {scan : Scan} (hs : scan.OffWire cat) :
    (r.addScan scan).OffWire cat where
  features := by
    rintro a ⟨⟩
    refine Catalogue.Spans.union ?_ hs.features
    cases ha : r.advertised with
    | none => exact Catalogue.spans_none
    | some a => exact h.features a ha
  icon := by
    rintro a ⟨⟩
    refine Catalogue.Names.or ?_ hs.icon
    cases ha : r.advertised with
    | none => exact nofun
    | some a => exact h.icon a ha
  mood := h.mood
  profile := h.profile
  awayMessage := h.awayMessage

theorem apply (h : r.OffWire cat) {e : Entry} (he : e.OffWire cat) :
    (Entry.apply r e).OffWire cat := by
  cases e with
  | capabilities scan => exact h.addScan he
  | shortCapabilities scan => exact h.addScan he
  | extras entries =>
      refine ⟨h.features, h.icon, ?_, h.profile, h.awayMessage⟩
      rintro x ⟨⟩
      refine Extra.names_foldl_apply ?_ he
      cases hx : r.extras with
      | none => exact nofun
      | some x => exact h.mood x hx
  | _ => exact ⟨h.features, h.icon, h.mood, h.profile, h.awayMessage⟩

theorem foldl_apply {entries : List Entry} (h : r.OffWire cat)
    (he : ∀ e ∈ entries, e.OffWire cat) : (entries.foldl Entry.apply r).OffWire cat := by
  induction entries generalizing r with
  | nil => exact h
  | cons e entries ih =>
      obtain ⟨he, hrest⟩ := List.forall_mem_cons.mp he
      exact ih (h.apply he) hrest

theorem foldl_addScan {scans : List Scan} (h : r.OffWire cat)
    (hs : ∀ s ∈ scans, s.OffWire cat) : (scans.foldl Record.addScan r).OffWire cat := by
  induction scans generalizing r with
  | nil => exact h
  | cons s scans ih =>
      obtain ⟨hs, hrest⟩ := List.forall_mem_cons.mp hs
      exact ih (h.addScan hs) hrest

end Record.OffWire

/-! ### Readings -/

theorem Reading.offWire_ofBlock (cat : Catalogue) (handle : String) (warningLevel : UInt16)
    (found : List Tlv.Found) : (ofBlock cat handle warningLevel found).record.OffWire cat := by
  refine (Record.OffWire.bare handle warningLevel).foldl_apply fun e he => ?_
  obtain ⟨t, -, rfl⟩ := List.mem_map.mp he
  exact Entry.offWire_ofTlv cat t

theorem Trailer.length_textOf {c : Chain} {text encoding : TrailerType} {t : Text}
    (hc : ∀ entry ∈ c, entry.value.length ≤ 65535) (h : t ∈ textOf c text encoding) :
    t.bytes.length ≤ 65535 := by
  obtain ⟨entry, hentry, rfl⟩ := Option.map_eq_some_iff.mp h
  exact hc entry (List.mem_of_mem_filter (List.mem_of_getLast? hentry))

theorem Reading.offWire_addTrailer {cat : Catalogue} {reading : Reading}
    (h : reading.record.OffWire cat) {found : List Tlv.Found}
    (hfound : ∀ t ∈ Chain.ofFound found, t.value.length ≤ 65535) :
    (reading.addTrailer cat found).record.OffWire cat := by
  refine Record.OffWire.foldl_addScan ⟨h.features, h.icon, h.mood, ?_, ?_⟩ fun s hs => ?_
  · intro t ht
    rcases Option.or_eq_some_iff.mp ht with ht | ⟨-, ht⟩
    · exact Trailer.length_textOf hfound ht
    · exact h.profile t ht
  · intro t ht
    rcases Option.or_eq_some_iff.mp ht with ht | ⟨-, ht⟩
    · exact Trailer.length_textOf hfound ht
    · exact h.awayMessage t ht
  · obtain ⟨t, -, rfl⟩ := List.mem_map.mp hs
    exact cat.offWire_scan t.value

namespace Record

variable {cat : Catalogue}

/-- **A record that was read says only what rows of the catalogue stand for.** -/
theorem offWire_of_decode {bytes : Bytes} {reading : Reading}
    (h : decode cat bytes = .ok reading) : reading.record.OffWire cat := by
  refine holds_of_decode (P := fun reading => reading.record.OffWire cat) ?_ ?_ h
  · intro handle level found
    exact Reading.offWire_ofBlock cat handle level found
  · intro reading bytes hreading
    exact Reading.offWire_addTrailer hreading fun t ht => Chain.length_value_of_mem_split ht

end Record
end Whereabouts
