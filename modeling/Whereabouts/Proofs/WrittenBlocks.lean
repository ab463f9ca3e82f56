import Mathlib.Data.List.Sort
import Whereabouts.Proofs.Catalogue
import Whereabouts.Proofs.Chain
import Whereabouts.Proofs.Checked.Blocks

/-! # What a written block stands for

A set of features is written as rows that are picked on one way through the table: a row is passed
over if it has a feature outside the set, or if the rows picked before it have all its features.
`StandFor` tells the picked rows without going through the table, each by its place alone: a row
counts if one of its features is that of no row before it that is in the set (`BringsIn`).  This is
so because a row that is passed over adds nothing, so what the picked rows have is what all rows in
the set have (`snd_foldl_pick`).

The names of a set are those of the same rows.  A block of them is read back as what they have,
wherever it stands, if no identifier stands for two rows (`encodeBlock_standFor`). -/

namespace Whereabouts
namespace Catalogue

/-! ### Rows by their places -/

/-- Whether the row at a place brings something of a set in: all its features are in the set, and
one of them is that of no such row before it. -/
def BringsIn (table : List Capability) (wanted : Features) (place : Nat) : Prop :=
  ∃ row, table[place]? = some row ∧ wanted.includes row.features = true ∧
    ∃ bit, row.features.has bit = true ∧
      ∀ earlier ∈ table.take place, wanted.includes earlier.features = true →
        earlier.features.has bit = false

/-- Whether rows are those of a table that bring something of a set in, in the order of the table. -/
def StandFor (table : List Capability) (wanted : Features) (rows : List Capability) : Prop :=
  ∃ places : List Nat, places.Pairwise (· < ·) ∧
    (∀ place, place ∈ places ↔ BringsIn table wanted place) ∧
    places.map (table[·]?) = rows.map some

variable {table rows rows' : List Capability} {wanted : Features} {place : Nat}

theorem lt_of_bringsIn (h : BringsIn table wanted place) : place < table.length := by
  obtain ⟨row, hrow, -⟩ := h
  exact (List.getElem?_eq_some_iff.mp hrow).1

theorem StandFor.unique (h : StandFor table wanted rows) (h' : StandFor table wanted rows') :
    rows = rows' := by
  obtain ⟨places, hsorted, hmem, hrows⟩ := h
  obtain ⟨places', hsorted', hmem', hrows'⟩ := h'
  have hplaces : places = places' :=
    hsorted.eq_of_mem_iff hsorted' fun place => (hmem place).trans (hmem' place).symm
  rw [hplaces, hrows'] at hrows
  exact ((Option.some_injective _).list_map hrows).symm

/-! ### One way through the table -/

/-- One more row at the end of a table changes nothing for those before it, and counts itself if the
rows picked before it do not have all its features. -/
theorem bringsIn_concat (row : Capability) :
    BringsIn (table ++ [row]) wanted place ↔
      BringsIn table wanted place ∨ place = table.length ∧ wanted.includes row.features = true ∧
        (table.foldl (rowsFor.pick wanted) ([], .none)).2.includes row.features = false := by
  have hcovered : ∀ bit, (table.foldl (rowsFor.pick wanted) ([], .none)).2.has bit = false ↔
      ∀ earlier ∈ table, wanted.includes earlier.features = true →
        earlier.features.has bit = false := by
    intro bit
    rw [snd_foldl_pick, Features.none_union, Features.has_unions, List.any_eq_false]
    simp
  rcases Nat.lt_trichotomy place table.length with hlt | rfl | hgt
  · have hlast : place ≠ table.length := Nat.ne_of_lt hlt
    unfold BringsIn
    rw [List.getElem?_append_left hlt, List.take_append_of_le_length (Nat.le_of_lt hlt)]
    simp [hlast]
  · have hbefore : ¬ BringsIn table wanted table.length :=
      fun h => Nat.lt_irrefl _ (lt_of_bringsIn h)
    rw [or_iff_right hbefore, Features.includes_eq_false_iff]
    unfold BringsIn
    rw [List.take_left]
    simp [hcovered]
  · have hbefore : ¬ BringsIn table wanted place :=
      fun h => Nat.lt_asymm hgt (lt_of_bringsIn h)
    have hafter : ¬ BringsIn (table ++ [row]) wanted place := by
      intro h
      have hlt := lt_of_bringsIn h
      rw [List.length_append, List.length_singleton] at hlt
      omega
    refine iff_of_false hafter (not_or.mpr ⟨hbefore, ?_⟩)
    rintro ⟨rfl, -⟩
    exact Nat.lt_irrefl _ hgt

theorem standFor_picked (table : List Capability) (wanted : Features) :
    StandFor table wanted (table.foldl (rowsFor.pick wanted) ([], .none)).1.reverse := by
  -- A row looks at those before it, so the induction adds rows at the end of the table.
  induction table using List.reverseRecOn with
  | nil =>
      refine ⟨[], .nil, fun place => iff_of_false List.not_mem_nil fun h => ?_, rfl⟩
      exact Nat.not_lt_zero place (lt_of_bringsIn h)
  | append_singleton table row ih =>
      obtain ⟨places, hsorted, hmem, hrows⟩ := ih
      have hlt : ∀ place ∈ places, place < table.length :=
        fun place hplace => lt_of_bringsIn ((hmem place).mp hplace)
      have hlookup : places.map ((table ++ [row])[·]?) = places.map (table[·]?) :=
        List.map_congr_left fun place hplace => List.getElem?_append_left (hlt place hplace)
      rw [List.foldl_append, List.foldl_cons, List.foldl_nil, rowsFor.pick]
      split_ifs with hnew <;>
        rw [Bool.and_eq_true, Bool.not_eq_true'] at hnew
      · refine ⟨places ++ [table.length], ?_, fun place => ?_, ?_⟩
        · rw [List.pairwise_append]
          refine ⟨hsorted, List.pairwise_singleton _ _, fun place hplace last hlast => ?_⟩
          rw [List.mem_singleton.mp hlast]
          exact hlt place hplace
        · rw [bringsIn_concat, List.mem_append, List.mem_singleton, hmem, and_iff_left hnew]
        · rw [List.map_append, hlookup, hrows, List.reverse_cons, List.map_append]
          simp
      · refine ⟨places, hsorted, fun place => ?_, hlookup.trans hrows⟩
        rw [bringsIn_concat, hmem, or_iff_left fun h => hnew h.2]

theorem standFor_rowsFor (cat : Catalogue) (wanted : Features) :
    StandFor cat.capabilities wanted (cat.rowsFor wanted) :=
  standFor_picked cat.capabilities wanted

/-! ### Blocks -/

variable {cat : Catalogue}

/-- A written block is read back wherever it stands. -/
theorem readBlock_encodeBlock (h : cat.Distinct) {icon : Option Icon} {length : Nat} {c : Cursor}
    (hc : c.unread.take length = cat.encodeBlock wanted icon) :
    cat.readBlock length c = .ok ⟨cat.known wanted, cat.keep icon, []⟩
      (c.advance (cat.encodeBlock wanted icon).length) := by
  rw [← scan_encodeBlock h]
  exact Reader.bind_ok (Reader.upTo_of_take hc)

/-- **A block has one identifier for each row that brings something in**, and one for the icon if it
names a row, so it fits an entry whole.  The names of a set are those of the same rows, which have
all that any row in the set has.  Without clashes the block says just this when it is read. -/
theorem encodeBlock_standFor (cat : Catalogue) (wanted : Features) (icon : Option Icon) :
    ∃ rows, (∀ rows', StandFor cat.capabilities wanted rows' ↔ rows' = rows) ∧
      rows.length ≤ 32 ∧
      cat.encodeBlock wanted icon = rows.flatMap (fun row => row.id.bytes) ++
        ((icon.bind cat.row?).map fun row => row.id.bytes).getD [] ∧
      (cat.encodeBlock wanted icon).length ≤ 528 ∧
      (∀ type, Tlv.cut ⟨type, cat.encodeBlock wanted icon⟩ = ⟨type, cat.encodeBlock wanted icon⟩) ∧
      cat.names wanted = rows.map Capability.name ∧
      .unions (rows.map Capability.features) = cat.known wanted ∧
      (cat.Distinct → ∀ (length : Nat) (c : Cursor),
        c.unread.take length = cat.encodeBlock wanted icon →
        cat.readBlock length c = .ok ⟨cat.known wanted, cat.keep icon, []⟩
          (c.advance (cat.encodeBlock wanted icon).length) ∧
        (c.Addressable → Checked.Runs (Checked.scan cat length) c
          (⟨cat.known wanted, cat.keep icon, []⟩, 0)
          (c.advance (cat.encodeBlock wanted icon).length))) := by
  have hrows := cat.standFor_rowsFor wanted
  have hlength := cat.length_encodeBlock_le wanted icon
  refine ⟨cat.rowsFor wanted, ?_, cat.length_rowsFor_le wanted, ?_, hlength, ?_, rfl,
    cat.unions_rowsFor wanted, ?_⟩
  · exact fun rows' => ⟨fun h => h.unique hrows, fun h => h ▸ hrows⟩
  · unfold encodeBlock
    cases icon.bind cat.row? <;> rfl
  · exact fun type => Tlv.cut_of_le (hlength.trans (by decide))
  · intro hdistinct length c hc
    have hread := readBlock_encodeBlock hdistinct hc
    refine ⟨hread, fun haddressable => ?_⟩
    exact (Checked.follows_scan cat length c haddressable).runs (Reader.bind_ok hread)

/-- A catalogue with a row that has no features, and with rows that share some. -/
def overlapping : Catalogue where
  capabilities := [⟨.none, "nothing", .ofNat 1⟩, ⟨⟨0b0011⟩, "low", .ofNat 2⟩,
    ⟨⟨0b0110⟩, "middle", .ofNat 3⟩, ⟨⟨0b0011⟩, "low again", .ofNat 4⟩,
    ⟨⟨0b0101⟩, "ends", .ofNat 5⟩, ⟨⟨0b1000⟩, "high", .ofNat 6⟩]
  icons := [⟨"none", "", .ofNat 0⟩, ⟨"shown", "", .ofNat 7⟩]

/-- Three features of rows, and one of none. -/
def lowFeatures : Features := ⟨0x80000007⟩

/-- Two rows and an icon, and an octet behind them. -/
def overlappingBlock : Bytes :=
  (Identifier.ofNat 2).bytes ++ (Identifier.ofNat 3).bytes ++ (Identifier.ofNat 7).bytes ++ [9]

/-- Two rows have the three features, so the other rows with some of them are passed over, as are the
row with none and the one with a feature that is not wanted. -/
theorem encodeBlock_standFor_overlapping :
    overlapping.Distinct ∧ overlapping.names lowFeatures = ["low", "middle"] ∧
      ∃ c, overlapping.readBlock 48 (.ofBytes overlappingBlock) =
        .ok ⟨⟨0b0111⟩, Icon.ofNat? 1, []⟩ c ∧ c.unread = [9] := by
  have hdistinct : overlapping.Distinct := by
    unfold Distinct
    decide +kernel
  obtain ⟨rows, hrows, -, -, -, -, hnames, hunions, hread⟩ :=
    encodeBlock_standFor overlapping lowFeatures (some ⟨1, by decide⟩)
  obtain rfl : rows = [⟨⟨0b0011⟩, "low", .ofNat 2⟩, ⟨⟨0b0110⟩, "middle", .ofNat 3⟩] :=
    ((hrows _).mp (standFor_rowsFor overlapping lowFeatures)).symm.trans (by decide +kernel)
  obtain ⟨hok, -⟩ := hread hdistinct 48 (.ofBytes overlappingBlock) (by decide +kernel)
  have hkeep : overlapping.keep (some ⟨1, by decide⟩) = Icon.ofNat? 1 := by decide +kernel
  rw [← hunions, hkeep] at hok
  exact ⟨hdistinct, hnames, _, hok, by decide +kernel⟩

end Catalogue
end Whereabouts
