import Whereabouts.Proofs.Catalogue
import Whereabouts.Proofs.Checked.Blocks

/-! # Short blocks beside full ones

The same rows may be told by their identifiers or by the short ones.  A full block and a short one
are read by loops of their own, with parts of another width that are looked up by another key.  A
look-up takes the first row that fits, which need not be the row that was meant; but if rows with one
short identifier have the same features (`ShortsAgree`), any row that fits will do, and both blocks
say what the rows have (`readShortBlock_agrees`). -/

namespace Whereabouts

theorem Identifier.length_short (id : Identifier) : id.short.length = shortWidth := by
  unfold short shortWidth
  rw [List.length_take, List.length_drop, id.length_eq]
  rfl

theorem Identifier.length_bytes (id : Identifier) : id.bytes.length = width := id.length_eq

/-- Whether a block says what rows have, and nothing in it is unmatched. -/
structure Scan.SaysRows (s : Scan) (rows : List Capability) : Prop where
  features : s.features = .unions (rows.map Capability.features)
  unmatched : s.unmatched = []

namespace Catalogue

/-- Whether rows with the same short identifier have the same features. -/
def ShortsAgree (cat : Catalogue) : Prop :=
  ∀ a ∈ cat.capabilities, ∀ b ∈ cat.capabilities, a.id.short = b.id.short → a.features = b.features

variable {cat : Catalogue} {rows : List Capability} {row : Capability} {tail : Bytes}

/-! ### Looking up a row -/

theorem ShortsAgree.shortFeatures? (h : cat.ShortsAgree) (hrow : row ∈ cat.capabilities) :
    cat.shortFeatures? row.id.short = some row.features :=
  Keyed.map_find?_of_mem h hrow

theorem ShortsAgree.features? (h : cat.ShortsAgree) (hrow : row ∈ cat.capabilities) :
    cat.features? row.id.bytes = some row.features := by
  refine Keyed.map_find?_of_mem (fun a ha b hb same => h a ha b hb ?_) hrow
  exact congrArg Identifier.short (Identifier.bytes_inj.mp same)

/-! ### Blocks of rows -/

section rows

variable {tell : Capability → Bytes} {width : Nat} {lookup : Bytes → Option Features}

theorem pieces_rows (hw : 0 < width) (htell : ∀ row, (tell row).length = width)
    (htail : tail.length < width) :
    Bytes.pieces width (rows.flatMap tell ++ tail) = rows.map tell := by
  rw [List.flatMap_def]
  refine Bytes.pieces_flatten_append hw (fun part hpart => ?_) htail
  obtain ⟨row, -, rfl⟩ := List.mem_map.mp hpart
  exact htell row

theorem length_rows (htell : ∀ row, (tell row).length = width) :
    (rows.flatMap tell ++ tail).length = width * rows.length + tail.length := by
  rw [List.length_append, List.flatMap_def, Bytes.length_flatten_of_width, List.length_map]
  intro part hpart
  obtain ⟨row, -, rfl⟩ := List.mem_map.mp hpart
  exact htell row

theorem filterMap_rows (h : ∀ row ∈ rows, lookup (tell row) = some row.features) :
    (rows.map tell).filterMap lookup = rows.map Capability.features := by
  rw [List.filterMap_map, ← List.filterMap_eq_map]
  exact List.filterMap_congr h

theorem filter_rows (h : ∀ row ∈ rows, lookup (tell row) = some row.features) :
    ((rows.map tell).filter fun id => (lookup id).isNone) = [] := by
  rw [List.filter_eq_nil_iff]
  intro id hid
  obtain ⟨row, hrow, rfl⟩ := List.mem_map.mp hid
  rw [h row hrow]
  exact Bool.false_ne_true

end rows

theorem saysRows_scanShort (h : cat.ShortsAgree) (hrows : ∀ row ∈ rows, row ∈ cat.capabilities)
    (htail : tail.length < Identifier.shortWidth) :
    (cat.scanShort (rows.flatMap (fun row => row.id.short) ++ tail)).SaysRows rows := by
  have hfound := fun row hrow => h.shortFeatures? (hrows row hrow)
  have hpieces : Bytes.pieces Identifier.shortWidth
      (rows.flatMap (fun row => row.id.short) ++ tail) = rows.map fun row => row.id.short :=
    pieces_rows (by decide) (fun row => row.id.length_short) htail
  unfold scanShort
  rw [hpieces]
  exact ⟨congrArg _ (filterMap_rows hfound), filter_rows hfound⟩

/-- The second table is not asked for what the first one has. -/
theorem saysRows_scan (h : cat.ShortsAgree) (hrows : ∀ row ∈ rows, row ∈ cat.capabilities)
    (htail : tail.length < Identifier.width) :
    (cat.scan (rows.flatMap (fun row => row.id.bytes) ++ tail)).SaysRows rows := by
  have hfound := fun row hrow => h.features? (hrows row hrow)
  have hpieces : Bytes.pieces Identifier.width
      (rows.flatMap (fun row => row.id.bytes) ++ tail) = rows.map fun row => row.id.bytes :=
    pieces_rows (by decide) (fun row => row.id.length_bytes) htail
  unfold scan
  rw [hpieces]
  dsimp only
  rw [filter_rows hfound]
  exact ⟨congrArg _ (filterMap_rows hfound), rfl⟩

/-- **A short block and a full block of the same rows say the same**: what the rows have, however often
they are repeated.  Neither has anything unmatched, and each is read up to its end, with whatever tail
too short for one more row stands there. -/
theorem readShortBlock_agrees :
    standard.ShortsAgree ∧
    ∀ cat : Catalogue, cat.ShortsAgree →
      ∀ rows : List Capability, (∀ row ∈ rows, row ∈ cat.capabilities) →
      ∀ odd part : Bytes, odd.length < Identifier.shortWidth → part.length < Identifier.width →
      ∀ (length length' : Nat) (c c' : Cursor),
        c.unread.take length = rows.flatMap (fun row => row.id.short) ++ odd →
        c'.unread.take length' = rows.flatMap (fun row => row.id.bytes) ++ part →
        ∃ short full : Scan, short.SaysRows rows ∧ full.SaysRows rows ∧
          cat.readShortBlock length c = .ok short (c.advance (2 * rows.length + odd.length)) ∧
          cat.readBlock length' c' = .ok full (c'.advance (16 * rows.length + part.length)) ∧
          (c.Addressable → Checked.Runs (Checked.scanShort cat length) c (short, 0)
            (c.advance (2 * rows.length + odd.length))) ∧
          (c'.Addressable → Checked.Runs (Checked.scan cat length') c' (full, 0)
            (c'.advance (16 * rows.length + part.length))) := by
  refine ⟨by unfold ShortsAgree; decide +kernel, ?_⟩
  intro cat h rows hrows odd part hodd hpart length length' c c' hc hc'
  have hshort := saysRows_scanShort h hrows hodd
  have hfull := saysRows_scan h hrows hpart
  have hread : cat.readShortBlock length c = .ok _ (c.advance _) :=
    Reader.bind_ok (Reader.upTo_of_take hc)
  have hread' : cat.readBlock length' c' = .ok _ (c'.advance _) :=
    Reader.bind_ok (Reader.upTo_of_take hc')
  rw [length_rows fun row => row.id.length_short] at hread
  rw [length_rows fun row => row.id.length_bytes] at hread'
  refine ⟨_, _, hshort, hfull, hread, hread', fun haddressable => ?_, fun haddressable => ?_⟩
  · have hruns := (Checked.follows_scanShort cat length c haddressable).runs (Reader.bind_ok hread)
    rwa [hshort.unmatched] at hruns
  · have hruns := (Checked.follows_scan cat length' c' haddressable).runs (Reader.bind_ok hread')
    rwa [hfull.unmatched] at hruns

/-- A row, and another with its short identifier and its features. -/
def twin : Capability := ⟨.ofBit 0, "first", family 1 2⟩
def otherTwin : Capability := ⟨.ofBit 0, "second", .ofNat 0x0000_0102_0000_0000_0000_0000_0000_0000⟩

/-- A row whose identifier is that of an icon as well. -/
def alsoIcon : Capability := ⟨.ofBit 1, "third", family 3 4⟩

/-- A catalogue with these rows. -/
def twins : Catalogue where
  capabilities := [twin, otherTwin, alsoIcon]
  icons := [⟨"none", "", .ofNat 0⟩, ⟨"shared", "", family 3 4⟩]

/-- Three identifiers and fifteen octets, and more octets behind the block. -/
def twinsBlock : Bytes :=
  otherTwin.id.bytes ++ alsoIcon.id.bytes ++ otherTwin.id.bytes ++ List.replicate 20 1

/-- The second twin is found as the first, in both blocks; the short one has an odd octet behind it. -/
theorem readShortBlock_agrees_twins :
    ∃ (short full : Scan) (c c' : Cursor),
      twins.readShortBlock (2 ^ 64 - 1) (.ofBytes [1, 2, 3, 4, 1, 2, 1]) = .ok short c ∧
      twins.readBlock 63 (.ofBytes twinsBlock) = .ok full c' ∧
      short.features = ⟨3⟩ ∧ full.features = ⟨3⟩ ∧ short.unmatched = [] ∧ full.unmatched = [] ∧
      c.unread = [] ∧ c'.unread = List.replicate 5 1 := by
  have hagree : twins.ShortsAgree := by
    unfold ShortsAgree
    decide +kernel
  obtain ⟨short, full, hshort, hfull, hread, hread', -⟩ :=
    readShortBlock_agrees.2 twins hagree [otherTwin, alsoIcon, otherTwin] (by decide) [1]
      (List.replicate 15 1) (by decide) (by decide) (2 ^ 64 - 1) 63 (.ofBytes [1, 2, 3, 4, 1, 2, 1])
      (.ofBytes twinsBlock) (by decide +kernel) (by decide +kernel)
  exact ⟨short, full, _, _, hread, hread', hshort.features.trans (by decide),
    hfull.features.trans (by decide), hshort.unmatched, hfull.unmatched, by decide +kernel,
    by decide +kernel⟩

end Catalogue
end Whereabouts
