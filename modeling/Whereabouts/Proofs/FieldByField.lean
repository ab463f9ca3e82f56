import Whereabouts.Proofs.SubEntries

/-! # A counted block, field by field

The record of a counted block is put together entry by entry.  `Record.SaidBy` says of each field
where in the chain it comes from, without going through the entries: a number is that of the last
entry of its types whose value is long enough, features are those of all identifiers, an icon is
that of the first identifier that has one, and extras are what all sub-entries say.

What one entry does is said once (`Entry.apply_ofTlv`), and the rules of accumulation carry it
over to a chain (`Record.saidBy_after`).  A chain says one thing only (`Record.SaidBy.unique`). -/

namespace Whereabouts

/-! ### What one entry says -/

namespace EntryType

theorem code_inj {a b : EntryType} : a.code = b.code ↔ a = b := Keyed.tell_inj ofCode?_code

theorem eq_code_of_ofCode? {n : UInt16} {type : EntryType} (h : ofCode? n = some type) :
    n = type.code :=
  (Keyed.tell_of_find? h).symm

theorem ne_code_of_ofCode? {n : UInt16} (h : ofCode? n = none) (type : EntryType) :
    n ≠ type.code :=
  Keyed.ne_tell_of_find?_eq_none ofCode?_code h type

end EntryType

namespace Tlv

variable {α : Type}

/-- What an entry of one of some types says, if its value can be read. -/
def says? (read : Bytes → Option α) (types : List EntryType) (t : Tlv) : Option α :=
  if t.type ∈ types.map EntryType.code then read t.value else none

/-- What an entry with identifiers says. -/
def scan? (cat : Catalogue) (t : Tlv) : Option Scan :=
  if t.type = EntryType.capabilities.code then some (cat.scan t.value)
  else if t.type = EntryType.shortCapabilities.code then some (cat.scanShort t.value)
  else none

/-- The sub-entries of an entry with extras. -/
def subEntries? (t : Tlv) : Option (List ExtraEntry) :=
  if t.type = EntryType.extras.code then some (ExtraEntry.splitAll t.value) else none

end Tlv

/-- One entry fills the fields that it is for, if it says anything, and leaves the others. -/
theorem Entry.apply_ofTlv (cat : Catalogue) (r : Record) (t : Tlv) :
    apply r (ofTlv cat t) = { r with
      userClass := ((t.says? Bytes.leading16? [.userClass]).map UserClass.mk).or r.userClass
      createdAt := (t.says? Bytes.leading32? [.createdAt]).or r.createdAt
      onlineSince := (t.says? Bytes.leading32? [.onlineSince]).or r.onlineSince
      memberSince := (t.says? Bytes.leading32? [.memberSince]).or r.memberSince
      idleMinutes := (t.says? Bytes.leading16? [.idleMinutes]).or r.idleMinutes
      sessionLength :=
        (t.says? Bytes.leading32? [.sessionLength, .sessionLengthAol]).or r.sessionLength
      icqStatus := ((t.says? Bytes.leading32? [.icqStatus]).map IcqStatus.ofWord32).or r.icqStatus
      externalIp := (t.says? Bytes.leading32? [.externalIp]).or r.externalIp
      advertised := ((t.scan? cat).map (r.advertised.getD {}).add).or r.advertised
      extras := (t.subEntries?.map fun entries =>
        (entries.map (Extra.ofEntry cat)).foldl Extra.apply (r.extras.getD {})).or r.extras } := by
  unfold ofTlv ofWord16 ofWord32 Tlv.word16? Tlv.word32? Tlv.says? Tlv.scan? Tlv.subEntries?
  cases htype : EntryType.ofCode? t.type with
  | none => simp [apply, EntryType.ne_code_of_ofCode? htype]
  | some known =>
      rw [EntryType.eq_code_of_ofCode? htype]
      cases known with
      | userClass | idleMinutes =>
          cases Bytes.leading16? t.value <;> simp [apply, EntryType.code_inj]
      | capabilities | shortCapabilities => simp [apply, EntryType.code_inj, Record.addScan]
      | extras => simp [apply, EntryType.code_inj, Extra.ofBlock]
      | _ => cases Bytes.leading32? t.value <;> simp [apply, EntryType.code_inj]

/-! ### Numbers of fields -/

namespace IcqStatus

/-- The number with a status in its halves. -/
def number (s : IcqStatus) : Nat := s.flags.toNat * 65536 + s.status.toNat

theorem number_ofWord32 (v : UInt32) : (ofWord32 v).number = v.toNat := by
  have h : v.toNat < 4294967296 := v.toNat_lt
  simp only [number, ofWord32, UInt16.toNat_ofNat']
  omega

theorem number_injective : Function.Injective number := by
  rintro ⟨flags, status⟩ ⟨flags', status'⟩ h
  have hstatus : status.toNat < 65536 := status.toNat_lt
  have hstatus' : status'.toNat < 65536 := status'.toNat_lt
  unfold number at h
  dsimp only at h
  rw [IcqStatus.mk.injEq, ← UInt16.toNat_inj, ← UInt16.toNat_inj]
  omega

end IcqStatus

theorem UserClass.bits_injective : Function.Injective bits := by
  rintro ⟨a⟩ ⟨b⟩ rfl
  rfl

/-! ### What a chain says -/

namespace Chain

/-- The parts of one width in the values of all entries of a type. -/
def parts (type : UInt16) (width : Nat) (c : Chain) : List Bytes :=
  (c.ofType type).flatMap fun t => Bytes.pieces width t.value

/-- The identifiers of a counted block. -/
def identifiers (c : Chain) : List Bytes := c.parts EntryType.capabilities.code Identifier.width

/-- The short identifiers of a counted block. -/
def shortIdentifiers (c : Chain) : List Bytes :=
  c.parts EntryType.shortCapabilities.code Identifier.shortWidth

/-- The values of all entries with extras. -/
def extraValues (c : Chain) : List Bytes := (c.ofType EntryType.extras.code).map Tlv.value

/-- The sub-entries of all entries with extras. -/
def subEntries (c : Chain) : List ExtraEntry := c.extraValues.flatMap ExtraEntry.splitAll

end Chain

namespace Catalogue

/-- The features of identifiers, full and short. -/
def featuresOf (cat : Catalogue) (ids shortIds : List Bytes) : Features :=
  .unions (ids.filterMap cat.features? ++ shortIds.filterMap cat.shortFeatures?)

/-- Whether an identifier is in neither table. -/
def isMiss (cat : Catalogue) (id : Bytes) : Bool := (cat.features? id).isNone && (cat.icon? id).isNone

/-- Whether a short identifier is not in the table. -/
def isShortMiss (cat : Catalogue) (id : Bytes) : Bool := (cat.shortFeatures? id).isNone

end Catalogue

/-- Whether a record has in its fields what a counted block says. -/
structure Record.SaidBy (cat : Catalogue) (c : Chain) (r : Record) : Prop where
  userClass : r.userClass.map UserClass.bits = latest? (Tlv.says? Bytes.leading16? [.userClass]) c
  createdAt : r.createdAt = latest? (Tlv.says? Bytes.leading32? [.createdAt]) c
  onlineSince : r.onlineSince = latest? (Tlv.says? Bytes.leading32? [.onlineSince]) c
  memberSince : r.memberSince = latest? (Tlv.says? Bytes.leading32? [.memberSince]) c
  idleMinutes : r.idleMinutes = latest? (Tlv.says? Bytes.leading16? [.idleMinutes]) c
  /-- Both types of the session length count together. -/
  sessionLength : r.sessionLength =
    latest? (Tlv.says? Bytes.leading32? [.sessionLength, .sessionLengthAol]) c
  icqStatus : r.icqStatus.map IcqStatus.number =
    (latest? (Tlv.says? Bytes.leading32? [.icqStatus]) c).map UInt32.toNat
  externalIp : r.externalIp = latest? (Tlv.says? Bytes.leading32? [.externalIp]) c
  /-- An entry without identifiers counts as well. -/
  advertised : r.advertised.isSome =
    (c.has EntryType.capabilities.code || c.has EntryType.shortCapabilities.code)
  features : r.features = cat.featuresOf c.identifiers c.shortIdentifiers
  icon : r.advertised.bind Advertised.icon = c.identifiers.findSome? cat.icon?
  extras : r.extras.isSome = c.has EntryType.extras.code
  inExtras : ∀ x ∈ r.extras, x.SaidBy cat c.subEntries
  profile : r.profile = none
  awayMessage : r.awayMessage = none

/-! ### From one entry to a chain -/

namespace Chain

variable (type : UInt16) (t : Tlv) (c : Chain)

theorem ofType_cons :
    ofType (t :: c) type = (if t.type = type then [t] else []) ++ ofType c type := by
  unfold ofType
  rw [List.filter_cons]
  by_cases h : t.type = type <;> simp [h]

theorem parts_cons (width : Nat) :
    parts type width (t :: c) =
      (if t.type = type then Bytes.pieces width t.value else []) ++ parts type width c := by
  unfold parts
  rw [ofType_cons, List.flatMap_append]
  split_ifs <;> simp

theorem subEntries_cons : subEntries (t :: c) = t.subEntries?.getD [] ++ subEntries c := by
  unfold subEntries extraValues Tlv.subEntries?
  rw [ofType_cons, List.map_append, List.flatMap_append]
  split_ifs <;> simp

theorem has_extras_iff : c.has EntryType.extras.code = true ↔ c.extraValues ≠ [] := by
  unfold has extraValues ofType
  rw [Ne, List.map_eq_nil_iff, List.filter_eq_nil_iff, List.any_eq_true]
  push Not
  rfl

theorem length_body_of_mem_subEntries : ∀ e ∈ subEntries c, e.body.length ≤ 255 := by
  intro e he
  obtain ⟨value, -, he⟩ := List.mem_flatMap.mp he
  obtain ⟨left, hsplits⟩ := ExtraEntry.splits_splitAll value
  exact hsplits.length_body e he

/-- The features that the entries bring in one by one are those of all identifiers. -/
theorem unions_scan? (cat : Catalogue) :
    Features.unions (c.map fun t => (t.scan? cat).elim .none Scan.features) =
      cat.featuresOf c.identifiers c.shortIdentifiers := by
  apply Features.ext_has
  intro i
  unfold Catalogue.featuresOf
  rw [Features.has_unions, Features.has_unions, List.any_append]
  induction c with
  | nil => rfl
  | cons t c ih =>
      unfold identifiers shortIdentifiers at ih ⊢
      rw [List.map_cons, List.any_cons, ih, parts_cons, parts_cons, List.filterMap_append,
        List.filterMap_append, List.any_append, List.any_append]
      unfold Tlv.scan?
      split_ifs with hfull hshort hshort
      · exact absurd (EntryType.code_inj.mp (hfull.symm.trans hshort)) nofun
      · rw [Option.elim_some, Catalogue.scan, Features.has_unions, Bool.or_assoc]
        rfl
      · rw [Option.elim_some, Catalogue.scanShort, Features.has_unions, Bool.or_left_comm]
        rfl
      · rw [Option.elim_none, Features.has_none, Bool.false_or]
        rfl

theorem any_scan? (cat : Catalogue) :
    (c.any fun t => (t.scan? cat).isSome) =
      (c.has EntryType.capabilities.code || c.has EntryType.shortCapabilities.code) := by
  have hscan : ∀ t : Tlv, (t.scan? cat).isSome = true ↔
      t.type = EntryType.capabilities.code ∨ t.type = EntryType.shortCapabilities.code := by
    intro t
    unfold Tlv.scan?
    split_ifs with hfull hshort
    · exact iff_of_true rfl (.inl hfull)
    · exact iff_of_true rfl (.inr hshort)
    · exact iff_of_false Bool.false_ne_true (not_or.mpr ⟨hfull, hshort⟩)
  unfold has
  rw [Bool.eq_iff_iff]
  simp only [List.any_eq_true, Bool.or_eq_true, beq_iff_eq, hscan, and_or_left, exists_or]

theorem any_subEntries? :
    (c.any fun t => t.subEntries?.isSome) = c.has EntryType.extras.code := by
  unfold has
  congr 1
  funext t
  unfold Tlv.subEntries?
  split_ifs with h <;> simp [h]

theorem findSome?_scan? (cat : Catalogue) :
    c.findSome? (fun t => (t.scan? cat).bind Scan.icon) = c.identifiers.findSome? cat.icon? := by
  unfold identifiers
  induction c with
  | nil => rfl
  | cons t c ih =>
      rw [List.findSome?_cons, parts_cons, List.findSome?_append, ih]
      unfold Tlv.scan?
      split_ifs with hfull hshort
      · rw [Option.bind_some]
        unfold Catalogue.scan
        dsimp only
        cases (Bytes.pieces Identifier.width t.value).findSome? cat.icon? <;> rfl
      · rfl
      · rfl

end Chain

namespace Record

variable (cat : Catalogue) (c : Chain) (r : Record)

/-- The record after the entries of a chain. -/
def after (cat : Catalogue) (c : Chain) (r : Record) : Record :=
  c.foldl (fun r t => Entry.apply r (Entry.ofTlv cat t)) r

theorem extras_after :
    (r.after cat c).extras.getD {} =
      (c.subEntries.map (Extra.ofEntry cat)).foldl Extra.apply (r.extras.getD {}) := by
  -- Missing extras are as good as empty ones, so the first entry with extras is like the others.
  induction c generalizing r with
  | nil => rfl
  | cons t c ih =>
      have hstep : (Entry.apply r (Entry.ofTlv cat t)).extras.getD {} =
          ((t.subEntries?.getD []).map (Extra.ofEntry cat)).foldl Extra.apply (r.extras.getD {}) := by
        rw [Entry.apply_ofTlv]
        cases t.subEntries? <;> rfl
      rw [Chain.subEntries_cons, List.map_append, List.foldl_append, ← hstep]
      exact ih _

theorem same_after :
    (r.after cat c).handle = r.handle ∧ (r.after cat c).warningLevel = r.warningLevel ∧
      (r.after cat c).profile = r.profile ∧ (r.after cat c).awayMessage = r.awayMessage := by
  have hstep := Entry.apply_ofTlv cat
  exact ⟨field_foldl_same r handle fun t _ r => (congrArg handle (hstep r t)).trans rfl,
    field_foldl_same r warningLevel fun t _ r => (congrArg warningLevel (hstep r t)).trans rfl,
    field_foldl_same r profile fun t _ r => (congrArg profile (hstep r t)).trans rfl,
    field_foldl_same r awayMessage fun t _ r => (congrArg awayMessage (hstep r t)).trans rfl⟩

theorem latest_after {α : Type} (field : Record → Option α) {say : Tlv → Option α} {r : Record}
    (hstep : ∀ r t, field (Entry.apply r (Entry.ofTlv cat t)) = (say t).or (field r))
    (hnone : field r = none) : field (r.after cat c) = latest? say c := by
  have h := field_foldl_latest r field fun t (_ : t ∈ c) r => hstep r t
  rw [hnone, Option.or_none] at h
  exact h

theorem features_addScan (scan : Scan) :
    (r.addScan scan).features = r.features.union scan.features := by
  unfold addScan features
  cases r.advertised <;> rfl

theorem icon_addScan (scan : Scan) :
    (r.addScan scan).advertised.bind Advertised.icon =
      (r.advertised.bind Advertised.icon).or scan.icon := by
  unfold addScan
  cases r.advertised <;> rfl

theorem advertised_apply_ofTlv (t : Tlv) :
    (Entry.apply r (Entry.ofTlv cat t)).advertised =
      ((t.scan? cat).map (r.advertised.getD {}).add).or r.advertised :=
  congrArg advertised (Entry.apply_ofTlv cat r t)

theorem isSome_advertised_after :
    (r.after cat c).advertised.isSome = (r.advertised.isSome ||
      (c.has EntryType.capabilities.code || c.has EntryType.shortCapabilities.code)) := by
  rw [← Chain.any_scan? c cat]
  refine field_foldl_any r (fun r => r.advertised.isSome) fun r t => ?_
  rw [advertised_apply_ofTlv]
  cases t.scan? cat <;> cases r.advertised <;> rfl

theorem features_after :
    (r.after cat c).features =
      r.features.union (cat.featuresOf c.identifiers c.shortIdentifiers) := by
  rw [← Chain.unions_scan?]
  refine field_foldl_union r features fun r t => ?_
  unfold features
  rw [advertised_apply_ofTlv]
  cases t.scan? cat with
  | none => exact Features.ext_has fun i => by simp
  | some scan => exact features_addScan r scan

theorem icon_after :
    (r.after cat c).advertised.bind Advertised.icon =
      (r.advertised.bind Advertised.icon).or (c.identifiers.findSome? cat.icon?) := by
  rw [← Chain.findSome?_scan?]
  refine field_foldl_first r (fun r => r.advertised.bind Advertised.icon) fun r t => ?_
  rw [advertised_apply_ofTlv]
  cases t.scan? cat with
  | none => exact Option.or_none.symm
  | some scan => exact icon_addScan r scan

theorem isSome_extras_after :
    (r.after cat c).extras.isSome = (r.extras.isSome || c.has EntryType.extras.code) := by
  rw [← Chain.any_subEntries?]
  refine field_foldl_any r (fun r => r.extras.isSome) fun r t => ?_
  rw [Entry.apply_ofTlv]
  cases t.subEntries? <;> cases r.extras <;> rfl

theorem saidBy_after (handle : String) (warningLevel : UInt16) :
    (after cat c { handle, warningLevel }).SaidBy cat c := by
  have hstep := Entry.apply_ofTlv cat
  refine
    { userClass := ?_
      createdAt := latest_after cat c createdAt (fun r t => congrArg createdAt (hstep r t)) rfl
      onlineSince := latest_after cat c onlineSince (fun r t => congrArg onlineSince (hstep r t)) rfl
      memberSince := latest_after cat c memberSince (fun r t => congrArg memberSince (hstep r t)) rfl
      idleMinutes := latest_after cat c idleMinutes (fun r t => congrArg idleMinutes (hstep r t)) rfl
      sessionLength :=
        latest_after cat c sessionLength (fun r t => congrArg sessionLength (hstep r t)) rfl
      icqStatus := ?_
      externalIp := latest_after cat c externalIp (fun r t => congrArg externalIp (hstep r t)) rfl
      advertised := ?_
      features := ?_
      icon := ?_
      extras := ?_
      inExtras := ?_
      profile := ?_
      awayMessage := ?_ }
  · have hclass := latest_after cat c userClass (fun r t => congrArg userClass (hstep r t))
      (rfl : userClass { handle, warningLevel } = none)
    rw [hclass, latest?_map, Option.map_map]
    exact congrFun Option.map_id _
  · have hstatus := latest_after cat c icqStatus (fun r t => congrArg icqStatus (hstep r t))
      (rfl : icqStatus { handle, warningLevel } = none)
    rw [hstatus, latest?_map, Option.map_map]
    exact congrArg (Option.map · _) (funext IcqStatus.number_ofWord32)
  · exact isSome_advertised_after cat c _
  · exact (features_after cat c _).trans (Features.none_union _)
  · exact icon_after cat c _
  · exact isSome_extras_after cat c _
  · intro x hx
    have hall := extras_after cat c { handle, warningLevel }
    rw [hx] at hall
    rw [show x = _ from hall]
    exact Extras.saidBy_foldl cat (Chain.length_body_of_mem_subEntries c)
  · exact (same_after cat c _).2.2.1
  · exact (same_after cat c _).2.2.2

/-- Features and icon are all that can be advertised. -/
theorem advertised_eq (r : Record) :
    r.advertised = if r.advertised.isSome then
      some ⟨r.features, r.advertised.bind Advertised.icon⟩ else none := by
  unfold features
  cases r.advertised <;> rfl

/-- What a chain says is one thing only, apart from whom it says it of. -/
theorem SaidBy.unique {cat : Catalogue} {c : Chain} {r r' : Record} (h : r.SaidBy cat c)
    (h' : r'.SaidBy cat c) (hhandle : r.handle = r'.handle)
    (hlevel : r.warningLevel = r'.warningLevel) : r = r' := by
  have hclass : r.userClass = r'.userClass :=
    Option.map_injective UserClass.bits_injective (h.userClass.trans h'.userClass.symm)
  have hstatus : r.icqStatus = r'.icqStatus :=
    Option.map_injective IcqStatus.number_injective (h.icqStatus.trans h'.icqStatus.symm)
  have hadvertised : r.advertised = r'.advertised := by
    rw [advertised_eq r, advertised_eq r', h.advertised, h'.advertised, h.features, h'.features,
      h.icon, h'.icon]
  have hextras : r.extras = r'.extras := by
    have hsome := h.extras.trans h'.extras.symm
    have hx := h.inExtras
    have hx' := h'.inExtras
    cases hr : r.extras with
    | none =>
        rw [hr] at hsome
        exact (Option.isNone_iff_eq_none.mp (by simpa using hsome.symm)).symm
    | some x =>
        rw [hr] at hsome
        obtain ⟨x', hr'⟩ := Option.isSome_iff_exists.mp hsome.symm
        rw [hr', (hx x hr).unique (hx' x' hr')]
  obtain ⟨⟩ := r
  obtain ⟨⟩ := r'
  obtain rfl := hhandle
  obtain rfl := hlevel
  obtain rfl := hclass
  obtain rfl := hstatus
  obtain rfl := hadvertised
  obtain rfl := hextras
  obtain rfl := h.createdAt.trans h'.createdAt.symm
  obtain rfl := h.onlineSince.trans h'.onlineSince.symm
  obtain rfl := h.memberSince.trans h'.memberSince.symm
  obtain rfl := h.idleMinutes.trans h'.idleMinutes.symm
  obtain rfl := h.sessionLength.trans h'.sessionLength.symm
  obtain rfl := h.externalIp.trans h'.externalIp.symm
  obtain rfl := h.profile.trans h'.profile.symm
  obtain rfl := h.awayMessage.trans h'.awayMessage.symm
  rfl

end Record

end Whereabouts
