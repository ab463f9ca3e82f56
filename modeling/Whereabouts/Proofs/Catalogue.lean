import Whereabouts.Capability.Standard
import Whereabouts.Capability.Block
import Whereabouts.Proofs.Features
import Whereabouts.Proofs.Keyed
import Whereabouts.Wire.Utf8

/-! # Blocks of identifiers on the wire and back

In a catalogue without clashes an identifier stands for one row, so a block that was written
says what it was written for: the features that rows of the catalogue stand for (`known`) and
the icon if it names a row (`keep`).  The block and its scan are two loops over different tables,
which meet in `scan_encodeBlock`. -/

namespace Whereabouts

/-! ### Identifiers -/

/-- Parts of one width that were joined are split again, whatever tail too short for one stands
behind them. -/
theorem Bytes.pieces_flatten_append {width : Nat} (hw : 0 < width) {parts : List Bytes}
    (h : ∀ part ∈ parts, part.length = width) {tail : Bytes} (htail : tail.length < width) :
    pieces width (parts.flatten ++ tail) = parts := by
  induction parts with
  | nil => exact pieces_of_lt htail
  | cons part parts ih =>
      obtain ⟨hpart, hrest⟩ := List.forall_mem_cons.mp h
      rw [List.flatten_cons, List.append_assoc,
        pieces_of_le hw (by rw [List.length_append, hpart]; omega), List.take_left' hpart,
        List.drop_left' hpart, ih hrest]

theorem Bytes.pieces_flatten {width : Nat} (hw : 0 < width) {parts : List Bytes}
    (h : ∀ part ∈ parts, part.length = width) : pieces width parts.flatten = parts := by
  have hjoined := pieces_flatten_append hw h (show ([] : Bytes).length < width from hw)
  rwa [List.append_nil] at hjoined

theorem Bytes.length_flatten_of_width {width : Nat} {parts : List Bytes}
    (h : ∀ part ∈ parts, part.length = width) : parts.flatten.length = width * parts.length := by
  induction parts with
  | nil => rfl
  | cons part parts ih =>
      obtain ⟨hpart, hrest⟩ := List.forall_mem_cons.mp h
      rw [List.flatten_cons, List.length_append, hpart, ih hrest, List.length_cons, Nat.mul_succ,
        Nat.add_comm]

theorem Identifier.bytes_inj {a b : Identifier} : a.bytes = b.bytes ↔ a = b := by
  cases a
  cases b
  simp

/-! ### Icons -/

namespace Icon

theorem toNat_index_pos (icon : Icon) : 0 < icon.index.toNat := by
  have hne : icon.index.toNat ≠ 0 := fun e => icon.index_ne_zero (UInt8.toNat_inj.mp e)
  omega

theorem ofNat?_toNat (icon : Icon) : ofNat? icon.index.toNat = some icon := by
  have hlt : icon.index.toNat < 256 := icon.index.toNat_lt
  simp only [ofNat?, if_pos hlt, UInt8.ofNat_toNat, ne_eq, icon.index_ne_zero, not_false_eq_true,
    dif_pos]

theorem ofNat?_eq_some_iff {n : Nat} {icon : Icon} :
    ofNat? n = some icon ↔ icon.index.toNat = n := by
  constructor
  · intro h
    unfold ofNat? at h
    split_ifs at h with hbyte hne
    obtain rfl := Option.some.inj h
    exact Nat.mod_eq_of_lt hbyte
  · rintro rfl
    exact icon.ofNat?_toNat

theorem ofNat?_eq_none_iff {n : Nat} : ofNat? n = none ↔ n = 0 ∨ 256 ≤ n := by
  constructor
  · intro h
    by_contra hfits
    have hlt : n < 256 := by omega
    have hne : UInt8.ofNat n ≠ 0 := by
      intro hzero
      have hmod : n % 256 = 0 := congrArg UInt8.toNat hzero
      omega
    simp [ofNat?, hlt, hne] at h
  · rintro (rfl | hlarge)
    · rfl
    · exact if_neg (Nat.not_lt.mpr hlarge)

end Icon

/-! ### Catalogues without clashes -/

namespace Catalogue

/-- A catalogue in which no identifier and no mood token stands for two rows, and in which every
mood token can be written. -/
structure WellFormed (cat : Catalogue) : Prop where
  ids_nodup : (cat.capabilities.map Capability.id ++ cat.icons.tail.map IconRow.id).Nodup
  moods_nodup : (cat.icons.tail.map IconRow.mood).Nodup
  mood_ne_empty : ∀ row ∈ cat.icons.tail, row.mood ≠ ""
  mood_length : ∀ row ∈ cat.icons.tail, (Utf8.encode row.mood).length ≤ 255

/-- A catalogue in which no identifier stands for two rows. -/
def Distinct (cat : Catalogue) : Prop :=
  (cat.capabilities.map Capability.id ++ cat.icons.tail.map IconRow.id).Nodup

theorem standard_wellFormed : WellFormed standard where
  ids_nodup := by decide +kernel
  moods_nodup := by decide +kernel
  mood_ne_empty := by decide +kernel
  mood_length := by decide +kernel

/-- The features of a set that rows of the catalogue stand for. -/
def known (cat : Catalogue) (f : Features) : Features :=
  .unions ((cat.capabilities.map Capability.features).filter f.includes)

/-- The icon if it names a row. -/
def keep (cat : Catalogue) (icon : Option Icon) : Option Icon :=
  icon.filter fun i => i.index.toNat < cat.icons.length

/-- Whether a row is the first of the capabilities with an identifier. -/
def FirstCapability (cat : Catalogue) (id : Bytes) (row : Capability) : Prop :=
  ∃ before after, cat.capabilities = before ++ row :: after ∧ row.id.bytes = id ∧
    ∀ r ∈ before, r.id.bytes ≠ id

/-- Whether an icon is the number of the first row behind row 0 that satisfies a test. -/
structure FirstIcon (cat : Catalogue) (test : IconRow → Bool) (icon : Icon) : Prop where
  row : ∃ row, cat.row? icon = some row ∧ test row = true
  first : ∀ i, 0 < i → i < icon.index.toNat → ∀ row, cat.icons[i]? = some row → test row = false

variable {cat : Catalogue}

/-! ### Looking up rows -/

theorem features?_eq_some_iff {id : Bytes} {f : Features} :
    cat.features? id = some f ↔ ∃ row, cat.FirstCapability id row ∧ row.features = f := by
  unfold features? FirstCapability
  rw [Option.map_eq_some_iff]
  refine exists_congr fun row => and_congr_left fun _ => ?_
  rw [List.find?_eq_some_iff_append, beq_iff_eq]
  constructor
  · rintro ⟨hid, before, after, hrows, hbefore⟩
    exact ⟨before, after, hrows, hid, fun r hr => by simpa using hbefore r hr⟩
  · rintro ⟨before, after, hrows, hid, hbefore⟩
    exact ⟨hid, before, after, hrows, fun r hr => by simpa using hbefore r hr⟩

/-- No identifier is that of a capability and of an icon. -/
theorem Distinct.id_ne (h : cat.Distinct) {row : Capability} {icon : IconRow}
    (hrow : row ∈ cat.capabilities) (hicon : icon ∈ cat.icons.tail) : row.id ≠ icon.id :=
  (List.nodup_append.mp h).2.2 _ (List.mem_map_of_mem hrow) _ (List.mem_map_of_mem hicon)

theorem features?_of_mem (h : cat.Distinct) {row : Capability} (hrow : row ∈ cat.capabilities) :
    cat.features? row.id.bytes = some row.features := by
  have hnodup : (cat.capabilities.map fun row => row.id.bytes).Nodup := by
    have hids := (List.nodup_append.mp h).1
    have hbytes := hids.map fun _ _ => Identifier.bytes_inj.mp
    rwa [List.map_map] at hbytes
  unfold features?
  rw [Keyed.find?_of_mem hnodup hrow, Option.map_some]

theorem features?_icon (h : cat.Distinct) {row : IconRow} (hrow : row ∈ cat.icons.tail) :
    cat.features? row.id.bytes = none := by
  unfold features?
  rw [Option.map_eq_none_iff, List.find?_eq_none]
  intro r hr same
  exact h.id_ne hr hrow (Identifier.bytes_inj.mp (beq_iff_eq.mp same))

theorem icon?_capability (h : cat.Distinct) {row : Capability} (hrow : row ∈ cat.capabilities) :
    cat.icon? row.id.bytes = none := by
  have hnone : cat.icons.tail.findIdx? (fun r => r.id.bytes == row.id.bytes) = none := by
    rw [List.findIdx?_eq_none_iff]
    intro r hr
    have hne : r.id ≠ row.id := (h.id_ne hrow hr).symm
    simpa [Identifier.bytes_inj] using hne
  unfold icon? findIcon?
  cases hicons : cat.icons with
  | nil => rfl
  | cons first rows =>
      rw [hicons, List.tail_cons] at hnone
      simp only [hnone, Option.bind_none]

/-- A row of an icon stands behind row 0. -/
theorem row?_eq_some_iff {icon : Icon} {row : IconRow} :
    cat.row? icon = some row ↔ cat.icons.tail[icon.index.toNat - 1]? = some row := by
  unfold row?
  rw [List.getElem?_tail, Nat.sub_add_cancel icon.toNat_index_pos]

theorem mem_of_row? {icon : Icon} {row : IconRow} (h : cat.row? icon = some row) :
    row ∈ cat.icons.tail :=
  List.mem_of_getElem? (row?_eq_some_iff.mp h)

theorem findIcon?_eq (cat : Catalogue) (test : IconRow → Bool) :
    cat.findIcon? test = (cat.icons.tail.findIdx? test).bind fun i => Icon.ofNat? (i + 1) := by
  unfold findIcon?
  cases cat.icons <;> rfl

theorem findIcon?_eq_some_iff {test : IconRow → Bool} {icon : Icon} :
    cat.findIcon? test = some icon ↔ cat.FirstIcon test icon := by
  rw [findIcon?_eq, Option.bind_eq_some_iff]
  constructor
  · rintro ⟨i, hi, hicon⟩
    rw [Icon.ofNat?_eq_some_iff] at hicon
    obtain ⟨hlt, htest, hbefore⟩ := List.findIdx?_eq_some_iff_getElem.mp hi
    refine ⟨⟨cat.icons.tail[i], ?_, htest⟩, ?_⟩
    · rw [row?_eq_some_iff, hicon, Nat.add_sub_cancel]
      exact List.getElem?_eq_getElem hlt
    · intro j hpos hj row hrow
      have hj' : j - 1 < i := by omega
      have hget : cat.icons.tail[j - 1]? = some row := by
        rw [List.getElem?_tail, Nat.sub_add_cancel hpos]
        exact hrow
      obtain ⟨-, rfl⟩ := List.getElem?_eq_some_iff.mp hget
      exact Bool.eq_false_iff.mpr (hbefore (j - 1) hj')
  · rintro ⟨⟨row, hrow, htest⟩, hfirst⟩
    have hpos := icon.toNat_index_pos
    obtain ⟨hlt, rfl⟩ := List.getElem?_eq_some_iff.mp (row?_eq_some_iff.mp hrow)
    refine ⟨icon.index.toNat - 1, List.findIdx?_eq_some_iff_getElem.mpr ⟨hlt, htest, ?_⟩, ?_⟩
    · intro j hj
      have hget : cat.icons[j + 1]? = some cat.icons.tail[j] := by
        rw [← List.getElem?_tail]
        exact List.getElem?_eq_getElem (Nat.lt_trans hj hlt)
      exact Bool.eq_false_iff.mp (hfirst (j + 1) (Nat.succ_pos j) (by omega) _ hget)
    · rw [Icon.ofNat?_eq_some_iff, Nat.sub_add_cancel hpos]

theorem findIcon?_eq_none_iff {test : IconRow → Bool} :
    cat.findIcon? test = none ↔ ∀ row ∈ (cat.icons.take 256).tail, test row = false := by
  have hrows : (cat.icons.take 256).tail = cat.icons.tail.take 255 := by
    cases cat.icons <;> rfl
  rw [findIcon?_eq, hrows]
  cases hi : cat.icons.tail.findIdx? test with
  | none =>
      refine iff_of_true rfl fun row hrow => ?_
      exact List.findIdx?_eq_none_iff.mp hi row (List.mem_of_mem_take hrow)
  | some i =>
      obtain ⟨hlt, htest, hbefore⟩ := List.findIdx?_eq_some_iff_getElem.mp hi
      rw [Option.bind_some, Icon.ofNat?_eq_none_iff]
      constructor
      · intro hlarge row hrow
        obtain ⟨j, hj, rfl⟩ := List.mem_take_iff_getElem.mp hrow
        exact Bool.eq_false_iff.mpr (hbefore j (by omega))
      · intro hall
        by_contra hsmall
        have hmem : cat.icons.tail[i] ∈ cat.icons.tail.take 255 :=
          List.mem_take_iff_getElem.mpr ⟨i, by omega, rfl⟩
        rw [hall _ hmem] at htest
        cases htest

/-- What tells the rows apart finds the icon of a row. -/
theorem findIcon?_of_row {α : Type} [BEq α] [LawfulBEq α] (tell : IconRow → α)
    (hnodup : (cat.icons.tail.map tell).Nodup) {icon : Icon} {row : IconRow}
    (h : cat.row? icon = some row) : cat.findIcon? (fun r => tell r == tell row) = some icon := by
  rw [findIcon?_eq_some_iff]
  refine ⟨⟨row, h, beq_self_eq_true _⟩, fun i hpos hi r hr => ?_⟩
  rw [beq_eq_false_iff_ne]
  intro same
  have hget : ∀ {j : Nat} {r : IconRow}, cat.icons.tail[j]? = some r →
      (cat.icons.tail.map tell)[j]? = some (tell r) := by
    intro j r hj
    rw [List.getElem?_map, hj, Option.map_some]
  have hrow := hget (row?_eq_some_iff.mp h)
  have hr' := hget (j := i - 1) (r := r) (by rw [List.getElem?_tail, Nat.sub_add_cancel hpos, hr])
  rw [same, ← hrow] at hr'
  have hlt := (List.getElem?_eq_some_iff.mp hrow).1
  have hindex := (List.getElem?_inj (show i - 1 < _ by omega) hnodup).mp hr'
  omega

theorem icon?_of_row (h : cat.Distinct) {icon : Icon} {row : IconRow}
    (hrow : cat.row? icon = some row) : cat.icon? row.id.bytes = some icon := by
  have hfind := findIcon?_of_row IconRow.id (List.nodup_append.mp h).2.1 hrow
  rw [← hfind, icon?]
  congr 1
  funext r
  rw [Bool.eq_iff_iff, beq_iff_eq, beq_iff_eq, Identifier.bytes_inj]

theorem moodIcon?_of_row (h : cat.WellFormed) {icon : Icon} {row : IconRow}
    (hrow : cat.row? icon = some row) : cat.moodIcon? row.mood = some icon :=
  findIcon?_of_row IconRow.mood h.moods_nodup hrow

theorem keep_eq (cat : Catalogue) (icon : Option Icon) :
    cat.keep icon = icon.filter fun i => (cat.row? i).isSome := by
  unfold keep
  congr 1
  funext i
  unfold row?
  rw [Bool.eq_iff_iff]
  simp

/-! ### Rows for features -/

/-- What is true of the rows that were picked: they are rows of the table, they stand for the
features that count as covered, and each of them covered something new. -/
structure Picked (rows : List Capability) (acc : List Capability × Features) : Prop where
  mem : ∀ row ∈ acc.1, row ∈ rows
  covered : .unions (acc.1.reverse.map Capability.features) = acc.2
  length_le : acc.1.length ≤ acc.2.members.card

theorem Picked.pick {rows : List Capability} {acc : List Capability × Features}
    (h : Picked rows acc) (wanted : Features) {row : Capability} (hrow : row ∈ rows) :
    Picked rows (rowsFor.pick wanted acc row) := by
  rw [rowsFor.pick]
  split_ifs with hnew
  · rw [Bool.and_eq_true, Bool.not_eq_true'] at hnew
    refine ⟨List.forall_mem_cons.mpr ⟨hrow, h.mem⟩, ?_, ?_⟩
    · have hcovered := h.covered
      unfold Features.unions at hcovered ⊢
      rw [List.reverse_cons, List.map_append, List.foldl_append, hcovered]
      rfl
    · exact Nat.succ_le_of_lt (Nat.lt_of_le_of_lt h.length_le (Features.card_members_lt hnew.2))
  · exact h

theorem picked_foldl (wanted : Features) {rows table : List Capability}
    {acc : List Capability × Features} (h : Picked table acc) (hsub : ∀ row ∈ rows, row ∈ table) :
    Picked table (rows.foldl (rowsFor.pick wanted) acc) := by
  induction rows generalizing acc with
  | nil => exact h
  | cons row rows ih =>
      obtain ⟨hrow, hrest⟩ := List.forall_mem_cons.mp hsub
      exact ih (h.pick wanted hrow) hrest

/-- A row that is passed over stands for nothing new, so it is covered all the same. -/
theorem snd_pick (wanted : Features) (acc : List Capability × Features) (row : Capability) :
    (rowsFor.pick wanted acc row).2 =
      if wanted.includes row.features then acc.2.union row.features else acc.2 := by
  rw [rowsFor.pick]
  cases hw : wanted.includes row.features with
  | false => rfl
  | true =>
      cases hc : acc.2.includes row.features with
      | false => rfl
      | true => exact (Features.union_of_includes hc).symm

theorem snd_foldl_pick (wanted : Features) (rows : List Capability)
    (acc : List Capability × Features) :
    (rows.foldl (rowsFor.pick wanted) acc).2 =
      acc.2.union (.unions ((rows.map Capability.features).filter wanted.includes)) := by
  induction rows generalizing acc with
  | nil => exact Features.foldl_union acc.2 []
  | cons row rows ih =>
      rw [List.foldl_cons, ih, snd_pick, List.map_cons, List.filter_cons]
      split_ifs
      · rw [Features.unions_cons, Features.union_assoc]
      · rfl

theorem picked_rowsFor (cat : Catalogue) (f : Features) :
    Picked cat.capabilities (cat.capabilities.foldl (rowsFor.pick f) ([], .none)) := by
  refine picked_foldl f ⟨?_, rfl, Nat.zero_le _⟩ fun row h => h
  intro row h
  cases h

theorem mem_of_mem_rowsFor {f : Features} {row : Capability} (h : row ∈ cat.rowsFor f) :
    row ∈ cat.capabilities :=
  (picked_rowsFor cat f).mem row (List.mem_reverse.mp h)

theorem unions_rowsFor (cat : Catalogue) (f : Features) :
    .unions ((cat.rowsFor f).map Capability.features) = cat.known f := by
  unfold rowsFor
  rw [(picked_rowsFor cat f).covered, snd_foldl_pick, Features.none_union, known]

/-- Nothing of a set is lost if each of its features is that of a row in it. -/
theorem known_eq_self {f : Features}
    (h : ∀ i, f.has i = true →
      ∃ row ∈ cat.capabilities, f.includes row.features = true ∧ row.features.has i = true) :
    cat.known f = f := by
  apply Features.ext_has
  intro i
  unfold known
  rw [Features.has_unions, Bool.eq_iff_iff, List.any_eq_true]
  constructor
  · rintro ⟨set, hset, hi⟩
    exact (Features.includes_iff _ _).mp (List.of_mem_filter hset) i hi
  · intro hi
    obtain ⟨row, hrow, hincludes, hi⟩ := h i hi
    exact ⟨row.features, List.mem_filter.mpr ⟨List.mem_map_of_mem hrow, hincludes⟩, hi⟩

theorem length_rowsFor_le (cat : Catalogue) (f : Features) : (cat.rowsFor f).length ≤ 32 := by
  unfold rowsFor
  rw [List.length_reverse]
  exact Nat.le_trans (picked_rowsFor cat f).length_le (Features.card_members_le _)

/-! ### Blocks -/

/-- The identifiers of a block. -/
def blockIds (cat : Catalogue) (f : Features) (icon : Option Icon) : List Identifier :=
  (cat.rowsFor f).map Capability.id ++ ((icon.bind cat.row?).map IconRow.id).toList

theorem encodeBlock_eq (cat : Catalogue) (f : Features) (icon : Option Icon) :
    cat.encodeBlock f icon = ((cat.blockIds f icon).map Identifier.bytes).flatten := by
  unfold encodeBlock blockIds
  rw [List.map_append, List.flatten_append, List.map_map, List.flatMap_def]
  cases icon.bind cat.row? with
  | none => rfl
  | some row => simp [Function.comp_def]

theorem length_of_mem_blockIds {f : Features} {icon : Option Icon} :
    ∀ part ∈ (cat.blockIds f icon).map Identifier.bytes, part.length = Identifier.width := by
  intro part hpart
  obtain ⟨id, -, rfl⟩ := List.mem_map.mp hpart
  exact id.length_eq

/-- A block always fits one entry. -/
theorem length_encodeBlock_le (cat : Catalogue) (f : Features) (icon : Option Icon) :
    (cat.encodeBlock f icon).length ≤ 528 := by
  have hrows := cat.length_rowsFor_le f
  have hicon := Option.length_toList_le (o := (icon.bind cat.row?).map IconRow.id)
  rw [encodeBlock_eq, Bytes.length_flatten_of_width length_of_mem_blockIds, List.length_map, blockIds,
    List.length_append, List.length_map, Identifier.width]
  omega

theorem pieces_encodeBlock (cat : Catalogue) (f : Features) (icon : Option Icon) :
    Bytes.pieces Identifier.width (cat.encodeBlock f icon) =
      (cat.blockIds f icon).map Identifier.bytes := by
  rw [encodeBlock_eq]
  exact Bytes.pieces_flatten (by decide) length_of_mem_blockIds

theorem filterMap_features? (h : cat.Distinct) {rows : List Capability}
    (hrows : ∀ row ∈ rows, row ∈ cat.capabilities) :
    ((rows.map Capability.id).map Identifier.bytes).filterMap cat.features? =
      rows.map Capability.features := by
  rw [List.map_map, List.filterMap_map, ← List.filterMap_eq_map]
  exact List.filterMap_congr fun row hrow => features?_of_mem h (hrows row hrow)

/-- The icon of a block is behind all its rows, none of which names an icon. -/
theorem findSome?_blockIds (h : cat.Distinct) (f : Features) (icon : Option Icon) :
    ((cat.blockIds f icon).map Identifier.bytes).findSome? cat.icon? = cat.keep icon := by
  have hrows : (((cat.rowsFor f).map Capability.id).map Identifier.bytes).findSome? cat.icon? =
      none := by
    rw [List.findSome?_eq_none_iff, List.map_map]
    intro id hid
    obtain ⟨row, hrow, rfl⟩ := List.mem_map.mp hid
    exact icon?_capability h (mem_of_mem_rowsFor hrow)
  unfold blockIds
  rw [List.map_append, List.findSome?_append, hrows, Option.none_or, keep_eq]
  cases icon with
  | none => rfl
  | some icon =>
      cases hrow : cat.row? icon with
      | none => simp [hrow, Option.filter_some]
      | some row => simp [hrow, icon?_of_row h hrow, Option.filter_some]

theorem filterMap_blockIds (h : cat.Distinct) (f : Features) (icon : Option Icon) :
    ((cat.blockIds f icon).map Identifier.bytes).filterMap cat.features? =
      (cat.rowsFor f).map Capability.features := by
  unfold blockIds
  rw [List.map_append, List.filterMap_append,
    filterMap_features? h fun row => mem_of_mem_rowsFor]
  cases hrow : icon.bind cat.row? with
  | none => exact List.append_nil _
  | some row =>
      obtain ⟨icon, -, hicon⟩ := Option.bind_eq_some_iff.mp hrow
      simp [features?_icon h (mem_of_row? hicon)]

theorem isSome_of_mem_blockIds (h : cat.Distinct) {f : Features} {icon : Option Icon}
    {id : Identifier} (hid : id ∈ cat.blockIds f icon) :
    (cat.features? id.bytes).isSome = true ∨ (cat.icon? id.bytes).isSome = true := by
  rcases List.mem_append.mp hid with hid | hid
  · obtain ⟨row, hrow, rfl⟩ := List.mem_map.mp hid
    rw [features?_of_mem h (mem_of_mem_rowsFor hrow)]
    exact .inl rfl
  · rw [Option.mem_toList, Option.map_eq_some_iff] at hid
    obtain ⟨row, hrow, rfl⟩ := hid
    obtain ⟨icon, -, hicon⟩ := Option.bind_eq_some_iff.mp hrow
    rw [icon?_of_row h hicon]
    exact .inr rfl

/-- **A block that was written says what it was written for**, and nothing else. -/
theorem scan_encodeBlock (h : cat.Distinct) (f : Features) (icon : Option Icon) :
    cat.scan (cat.encodeBlock f icon) = ⟨cat.known f, cat.keep icon, []⟩ := by
  simp only [scan, pieces_encodeBlock, filterMap_blockIds h, unions_rowsFor,
    findSome?_blockIds h, Scan.mk.injEq, true_and, List.filter_filter, List.filter_eq_nil_iff]
  intro bytes hbytes
  obtain ⟨id, hid, rfl⟩ := List.mem_map.mp hbytes
  rcases isSome_of_mem_blockIds h hid with hf | hi
  · simp [Option.isNone_eq_false_iff.mpr hf]
  · simp [Option.isNone_eq_false_iff.mpr hi]

end Catalogue
end Whereabouts
