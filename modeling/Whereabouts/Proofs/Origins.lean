import Whereabouts.Proofs.BlockSurvey
import Whereabouts.Proofs.Readings
import Whereabouts.Proofs.SessionRun
import Whereabouts.Proofs.TrailerFields
import Whereabouts.Proofs.Truncation

/-! # Where features and icons come from

No octets name a feature or an icon by its number.  Identifiers and mood tokens are looked up in the
tables of a catalogue, so a record has nothing but what rows of these tables gave for something that
was said: `Record.DrawnFrom`.  What can be said is an identifier in a capability block, full or
short, or a sub-entry of the extras (`Saying`).

A catalogue gives an icon for a test if no row between row 0 and the row of the icon passes the test
(`Catalogue.Gives`).  It gives none that does not fit an octet, however many rows there are, so the
number of an icon is never that of another row.

A merge takes each field from one of two records, so what is true of all updates is true of all
known records (`Roster.holds_run`). -/

namespace Whereabouts

/-! ### What is said -/

/-- What the entries of a record say that a catalogue may know. -/
inductive Saying where
  | identifier (id : Bytes)
  | shortIdentifier (id : Bytes)
  | subEntry (e : ExtraEntry)

/-- What stands behind the entries of a counted block. -/
def Chain.behind (count : UInt16) (body : Bytes) : Bytes :=
  (splitCounted count.toNat body.length body).2

namespace Saying

/-- Whether something is said by the entries of a counted block or of a trailer. -/
def SaidBy (block trailer : Chain) : Saying → Prop
  | identifier id => id ∈ block.identifiers ++ trailer.trailerIdentifiers
  | shortIdentifier id => id ∈ block.shortIdentifiers
  | subEntry e => e ∈ block.subEntries

/-- Whether something is said by the record at the front of some octets. -/
def In (bytes : Bytes) (s : Saying) : Prop :=
  ∃ handle warningLevel count body, handle.length ≤ Bytes.countedLimit ∧
    bytes = Record.front handle warningLevel count ++ body ∧
    s.SaidBy (.block count body) (.trailer (Chain.behind count body))

end Saying

/-! ### What is given for it -/

namespace Catalogue

/-- Whether a catalogue gives an icon for a test: its number fits an octet and is that of a row,
which is the first behind row 0 that passes the test. -/
structure Gives (cat : Catalogue) (test : IconRow → Bool) (icon : Icon) : Prop where
  octet : 1 ≤ icon.index.toNat ∧ icon.index.toNat ≤ 255
  lt_length : icon.index.toNat < cat.icons.length
  first : cat.FirstIcon test icon

/-- Whether a catalogue gives an icon for something that was said. -/
def GivesFor (cat : Catalogue) (icon : Icon) : Saying → Prop
  | .identifier id => cat.Gives (fun row => row.id.bytes == id) icon
  | .shortIdentifier _ => False
  | .subEntry e => e.type = ExtraType.mood.code ∧ Utf8.decodeLossy e.body ≠ "" ∧
      cat.Gives (fun row => row.mood == Utf8.decodeLossy e.body) icon

end Catalogue

/-- Whether a record has only what a catalogue gives for something that was said. -/
structure Record.DrawnFrom (cat : Catalogue) (said : Saying → Prop) (r : Record) : Prop where
  features : ∀ bit, r.features.has bit = true → ∃ row ∈ cat.capabilities,
    row.features.has bit = true ∧
      (said (.identifier row.id.bytes) ∨ said (.shortIdentifier row.id.short))
  icon : ∀ icon, r.advertised.bind Advertised.icon = some icon →
    ∃ id, said (.identifier id) ∧ cat.GivesFor icon (.identifier id)
  mood : ∀ icon, r.mood? = some icon →
    ∃ e, said (.subEntry e) ∧ cat.GivesFor icon (.subEntry e)
  /-- The icon that the record shows is one of these two. -/
  shown : ∀ icon, r.icon? = some icon → ∃ s, said s ∧ cat.GivesFor icon s
  iconChecksum : ∀ sum, r.iconChecksum? = some sum →
    (sum.kind.number = 0 ∨ sum.kind.number = 1) ∧
    1 ≤ sum.digest.length ∧ sum.digest.length ≤ 255 ∧
    ∃ e, said (.subEntry e) ∧ e.type = ExtraType.iconChecksum.code ∧
      e.number = sum.kind.number ∧ e.body = sum.digest

/-! ### One look at a table -/

namespace Catalogue

variable {cat : Catalogue} {icon : Icon} {test : IconRow → Bool}

theorem gives_of_findIcon? (h : cat.findIcon? test = some icon) : cat.Gives test icon := by
  have hfirst := findIcon?_eq_some_iff.mp h
  obtain ⟨row, hrow, -⟩ := hfirst.row
  have hlt : icon.index.toNat < 256 := icon.index.toNat_lt
  have hlength := (List.getElem?_eq_some_iff.mp hrow).1
  exact ⟨⟨icon.toNat_index_pos, Nat.le_of_lt_succ hlt⟩, hlength, hfirst⟩

theorem givesFor_subEntry {e : ExtraEntry} (h : e.icon? cat = some icon) :
    cat.GivesFor icon (.subEntry e) := by
  unfold ExtraEntry.icon? at h
  split_ifs at h with hmood
  exact ⟨hmood.1, hmood.2, gives_of_findIcon? h⟩

/-- A feature of identifiers is that of a row with one of them. -/
theorem exists_row_of_featuresOf {ids shortIds : List Bytes} {bit : Nat}
    (h : (cat.featuresOf ids shortIds).has bit = true) :
    ∃ row ∈ cat.capabilities, row.features.has bit = true ∧
      (row.id.bytes ∈ ids ∨ row.id.short ∈ shortIds) := by
  unfold featuresOf at h
  rw [Features.has_unions, List.any_eq_true] at h
  obtain ⟨f, hf, hbit⟩ := h
  rcases List.mem_append.mp hf with hf | hf
  · obtain ⟨id, hid, hfeatures⟩ := List.mem_filterMap.mp hf
    obtain ⟨row, ⟨before, after, hrows, rfl, -⟩, rfl⟩ := features?_eq_some_iff.mp hfeatures
    refine ⟨row, ?_, hbit, .inl hid⟩
    rw [hrows]
    exact List.mem_append_right _ (List.mem_cons_self ..)
  · obtain ⟨id, hid, hfeatures⟩ := List.mem_filterMap.mp hf
    obtain ⟨row, hrow, rfl⟩ := Option.map_eq_some_iff.mp hfeatures
    refine ⟨row, List.mem_of_find?_eq_some hrow, hbit, .inr ?_⟩
    rw [Keyed.tell_of_find? hrow]
    exact hid

end Catalogue

/-! ### Reading -/

namespace Record

variable {cat : Catalogue} {said said' : Saying → Prop} {r : Record}

/-- The icon that a record shows is the mood or the one among the capabilities. -/
theorem givesFor_of_icon?
    (hicon : ∀ icon, r.advertised.bind Advertised.icon = some icon →
      ∃ id, said (.identifier id) ∧ cat.GivesFor icon (.identifier id))
    (hmood : ∀ icon, r.mood? = some icon →
      ∃ e, said (.subEntry e) ∧ cat.GivesFor icon (.subEntry e)) :
    ∀ icon, r.icon? = some icon → ∃ s, said s ∧ cat.GivesFor icon s := by
  intro icon h
  rcases Option.or_eq_some_iff.mp h with h | ⟨-, h⟩
  · obtain ⟨e, he⟩ := hmood icon h
    exact ⟨_, he⟩
  · obtain ⟨id, hid⟩ := hicon icon h
    exact ⟨_, hid⟩

theorem DrawnFrom.mono (h : r.DrawnFrom cat said) (hsaid : ∀ s, said s → said' s) :
    r.DrawnFrom cat said' where
  features bit hbit := by
    obtain ⟨row, hrow, hhas, hid⟩ := h.features bit hbit
    exact ⟨row, hrow, hhas, hid.imp (hsaid _) (hsaid _)⟩
  icon icon hicon := by
    obtain ⟨id, hid, hgives⟩ := h.icon icon hicon
    exact ⟨id, hsaid _ hid, hgives⟩
  mood icon hicon := by
    obtain ⟨e, he, hgives⟩ := h.mood icon hicon
    exact ⟨e, hsaid _ he, hgives⟩
  shown icon hicon := by
    obtain ⟨s, hs, hgives⟩ := h.shown icon hicon
    exact ⟨s, hsaid s hs, hgives⟩
  iconChecksum sum hsum := by
    obtain ⟨hnumber, hpos, hle, e, he, hparts⟩ := h.iconChecksum sum hsum
    exact ⟨hnumber, hpos, hle, e, hsaid _ he, hparts⟩

section said

variable {b t : Chain}

theorem SaidBy.exists_of_mood? (h : r.SaidBy cat b) {icon : Icon} (hicon : r.mood? = some icon) :
    ∃ e ∈ b.subEntries, cat.GivesFor icon (.subEntry e) := by
  obtain ⟨x, hx, hmood⟩ := Option.bind_eq_some_iff.mp hicon
  rw [(h.inExtras x hx).mood] at hmood
  obtain ⟨e, he, hlookup⟩ := exists_of_latest? _ _ hmood
  exact ⟨e, he, Catalogue.givesFor_subEntry hlookup⟩

theorem SaidBy.exists_of_iconChecksum? (h : r.SaidBy cat b) {sum : IconChecksum}
    (hsum : r.iconChecksum? = some sum) :
    ∃ e ∈ b.subEntries, e.type = ExtraType.iconChecksum.code ∧ (e.number = 0 ∨ e.number = 1) ∧
      e.number = sum.kind.number ∧ e.body = sum.digest := by
  obtain ⟨x, hx, hchecksum⟩ := Option.bind_eq_some_iff.mp hsum
  have hparts := (h.inExtras x hx).iconChecksum
  rw [hchecksum] at hparts
  obtain ⟨e, he, hsays⟩ := exists_of_latest? _ _ hparts.symm
  unfold ExtraEntry.checksum? at hsays
  split_ifs at hsays with hproper
  obtain ⟨hnumber, hbody⟩ := Prod.mk.inj (Option.some.inj hsays)
  exact ⟨e, he, hproper.1, hproper.2.1, hnumber, hbody⟩

/-- A reading has what its block and its trailer say. -/
theorem drawnFrom_of_said {block reading : Reading} (hblock : block.record.SaidBy cat b)
    (htrailer : block.ContinuesTo cat t reading) :
    reading.record.DrawnFrom cat (Saying.SaidBy b t) := by
  -- A trailer has no extras, so those of the reading are those of its block.
  have hextras : reading.record.extras = block.record.extras :=
    (congrArg Record.extras htrailer.others).trans rfl
  have hicon : ∀ icon, reading.record.advertised.bind Advertised.icon = some icon →
      ∃ id, id ∈ b.identifiers ++ t.trailerIdentifiers ∧ cat.GivesFor icon (.identifier id) := by
    intro icon h
    rw [htrailer.icon, hblock.icon, ← List.findSome?_append] at h
    obtain ⟨id, hid, hlookup⟩ := List.exists_of_findSome?_eq_some h
    exact ⟨id, hid, Catalogue.gives_of_findIcon? hlookup⟩
  have hmood : ∀ icon, reading.record.mood? = some icon →
      ∃ e, e ∈ b.subEntries ∧ cat.GivesFor icon (.subEntry e) := by
    intro icon h
    unfold mood? at h
    rw [hextras] at h
    exact hblock.exists_of_mood? h
  refine
    { features := ?_
      icon := hicon
      mood := hmood
      shown := givesFor_of_icon? hicon hmood
      iconChecksum := ?_ }
  · intro bit hbit
    rw [htrailer.features, hblock.features, Features.has_union, Bool.or_eq_true] at hbit
    rcases hbit with hbit | hbit
    · obtain ⟨row, hrow, hhas, hid⟩ := Catalogue.exists_row_of_featuresOf hbit
      exact ⟨row, hrow, hhas, hid.imp_left (List.mem_append_left _)⟩
    · obtain ⟨row, hrow, hhas, hid⟩ := Catalogue.exists_row_of_featuresOf hbit
      exact ⟨row, hrow, hhas, .inl (List.mem_append_right _ (hid.resolve_right List.not_mem_nil))⟩
  · intro sum h
    unfold iconChecksum? at h
    rw [hextras] at h
    obtain ⟨e, he, htype, hkind, hnumber, hbody⟩ := hblock.exists_of_iconChecksum? h
    rw [hnumber] at hkind
    exact ⟨hkind, sum.digest_length.1, sum.digest_length.2, e, he, htype, hnumber, hbody⟩

end said

/-! ### The front of a record -/

theorem exists_front {block : Reading} {c c₁ : Cursor} (h : readBlock cat c = .ok block c₁) :
    ∃ handle warningLevel count body, handle.length ≤ Bytes.countedLimit ∧
      c.unread = front handle warningLevel count ++ body := by
  cases hunread : c.unread with
  | nil =>
      obtain ⟨c', herror⟩ :=
        (failsByFront_readBlock cat c).of_empty ((Cursor.remaining_eq_zero_iff c).mpr hunread)
      rw [herror] at h
      cases h
  | cons l rest =>
      have hroom := ((failsByFront_readBlock cat c).ok_iff l rest hunread).mp ⟨block, c₁, h⟩
      have hlength : c.remaining = rest.length + 1 := by
        rw [← Cursor.length_unread, hunread, List.length_cons]
      have hl : l.toNat < 256 := l.toNat_lt
      have hhandle : (rest.take l.toNat).length = l.toNat := by
        rw [List.length_take]
        omega
      obtain ⟨a, b, m, n, body, hbody⟩ := @Tlv.exists_header (rest.drop l.toNat) (by
        rw [List.length_drop, Tlv.headerSize]
        omega)
      have hlimit : (rest.take l.toNat).length ≤ Bytes.countedLimit :=
        hhandle.trans_le (Nat.le_of_lt_succ hl)
      refine ⟨rest.take l.toNat, Bytes.word16 a b, Bytes.word16 m n, body, hlimit, ?_⟩
      unfold front Bytes.counted
      rw [List.take_of_length_le hlimit]
      dsimp only
      rw [hhandle, UInt8.ofNat_toNat, Bytes.ofWord16_word16, Bytes.ofWord16_word16,
        List.append_assoc, List.append_assoc, List.cons_append]
      show l :: rest = l :: (rest.take l.toNat ++ a :: b :: m :: n :: body)
      rw [← hbody, List.take_append_drop]

/-- **A record has only what the catalogue gives for what it says.** -/
theorem drawnFrom_of_read {reading : Reading} {c c' : Cursor} (h : read cat c = .ok reading c') :
    reading.record.DrawnFrom cat (Saying.In c.unread) := by
  obtain ⟨block, c₁, hblock, -⟩ := Reader.bind_inv h
  obtain ⟨handle, warningLevel, count, body, hhandle, hc⟩ := exists_front hblock
  obtain ⟨d, hblock', hleft, -⟩ := readBlock_of_front cat hc
  obtain ⟨rfl, rfl⟩ := EStateM.Result.ok.inj (hblock.symm.trans hblock')
  obtain ⟨c₂, hread, -, -⟩ := read_of_readBlock hblock
  obtain ⟨rfl, -⟩ := EStateM.Result.ok.inj (h.symm.trans hread)
  have hsaid := Reading.saidBy_ofBlock cat (Utf8.decodeLossy (handle.take Bytes.countedLimit))
    warningLevel (Chain.splitCounted count.toNat body.length body).1
  have hmore := Reading.continuesTo_addTrailer cat hsaid.fields.profile hsaid.fields.awayMessage
    (Chain.split c₁.unread.length c₁.unread).1
  refine (drawnFrom_of_said hsaid.fields hmore).mono fun s hs => ?_
  refine ⟨handle, warningLevel, count, body, hhandle, hc, ?_⟩
  rw [hleft] at hs
  exact hs

/-! ### Merging -/

theorem DrawnFrom.merge {known update : Record} (hknown : known.DrawnFrom cat said)
    (hupdate : update.DrawnFrom cat said) : (known.merge update).DrawnFrom cat said := by
  have hadvertised : (known.merge update).advertised = update.advertised ∨
      (known.merge update).advertised = known.advertised := by
    unfold Record.merge
    cases update.advertised with
    | none => exact .inr rfl
    | some a => exact .inl rfl
  have hextras : ∀ {α : Type} {field : Extras → Option α} {a : α},
      (∀ known update : Extras, field (known.merge update) = (field update).or (field known)) →
      field {} = none → (known.merge update).extras.bind field = some a →
      update.extras.bind field = some a ∨ known.extras.bind field = some a := by
    intro α field a hfield hempty h
    have hmerge := bind_mergeExtras hfield hempty known.extras update.extras
    exact (Option.or_eq_some_iff.mp (hmerge.symm.trans h)).imp_right And.right
  have hicon : ∀ icon, (known.merge update).advertised.bind Advertised.icon = some icon →
      ∃ id, said (.identifier id) ∧ cat.GivesFor icon (.identifier id) := by
    intro icon h
    rcases hadvertised with hsame | hsame
    · exact hupdate.icon icon (hsame ▸ h)
    · exact hknown.icon icon (hsame ▸ h)
  have hmood : ∀ icon, (known.merge update).mood? = some icon →
      ∃ e, said (.subEntry e) ∧ cat.GivesFor icon (.subEntry e) := fun icon h =>
    (hextras (fun _ _ => rfl) rfl h).elim (hupdate.mood icon) (hknown.mood icon)
  refine
    { features := ?_
      icon := hicon
      mood := hmood
      shown := givesFor_of_icon? hicon hmood
      iconChecksum := fun sum h =>
        (hextras (fun _ _ => rfl) rfl h).elim (hupdate.iconChecksum sum) (hknown.iconChecksum sum) }
  intro bit hbit
  unfold Record.features at hbit
  rcases hadvertised with hsame | hsame
  · rw [hsame] at hbit
    exact hupdate.features bit hbit
  · rw [hsame] at hbit
    exact hknown.features bit hbit

end Record

/-! ### Sessions -/

/-- Whether something is said by one of the records that a session was given. -/
def Session.heard (history : List Session.Occurrence) (s : Saying) : Prop :=
  ∃ data, (∃ reply, ⟨.receive data, reply⟩ ∈ history) ∧ s.In data

theorem Session.exists_data_of_mem {history : List Session.Occurrence} {update : Record}
    (h : .merge update ∈ Session.rosterOps history) :
    ∃ data reply reading, ⟨.receive data, reply⟩ ∈ history ∧
      Record.decode Session.catalogue data = .ok reading ∧ reading.record = update := by
  obtain ⟨⟨call, reply⟩, hmem, hop⟩ := List.mem_filterMap.mp h
  cases call with
  | receive data =>
      simp only [Session.Call.op?] at hop
      cases hdecode : Record.decode Session.catalogue data with
      | error fault =>
          rw [hdecode] at hop
          cases hop
      | ok reading =>
          rw [hdecode] at hop
          exact ⟨data, reply, reading, hmem, hdecode, Roster.Op.merge.inj (Option.some.inj hop)⟩
  | _ => cases hop

namespace Record

/-- **Every record that is read has only what the catalogue gives for what it says**, and so has
every record that a session knows, after whatever was received and forgotten. -/
theorem drawnFrom_said :
    (∀ (cat : Catalogue) (c c' : Cursor) (reading : Reading), read cat c = .ok reading c' →
      reading.record.DrawnFrom cat (Saying.In c.unread)) ∧
    ∀ (settings : Settings) (history : List Session.Occurrence) (s : Session),
      Session.Run settings history s →
      ∀ known ∈ s.roster.records, known.DrawnFrom .standard (Session.heard history) := by
  refine ⟨fun cat c c' reading => drawnFrom_of_read, fun settings history s run => ?_⟩
  rw [run.roster]
  refine Roster.holds_run (fun update hupdate => ?_) fun known update => DrawnFrom.merge
  obtain ⟨data, reply, reading, hdata, hdecode, rfl⟩ := Session.exists_data_of_mem hupdate
  obtain ⟨c, hread⟩ := exists_read_of_decode hdecode
  exact (drawnFrom_of_read hread).mono fun s hs => ⟨data, ⟨reply, hdata⟩, hs⟩

/-- A record with two identifiers of icons, one of them behind the last row that has a number. -/
def crowdedRecord : Bytes :=
  [1, 97, 0, 0, 0, 1, 0, 13, 0, 32] ++ (Identifier.ofNat 2).bytes ++ (Identifier.ofNat 1).bytes

/-- A record with the identifier of the icon in row 2. -/
def duckRecord : Bytes :=
  [3, 97, 110, 110, 0, 0, 0, 1, 0, 13, 0, 16] ++
    (Identifier.ofNat 0x5A581EA1E580430CA06F612298B7E4C7).bytes

/-- A record, by another spelling, with the mood token of row 5 and a checksum. -/
def beerRecord : Bytes :=
  [4, 65, 32, 78, 110, 0, 0, 0, 1, 0, 29, 0, 17, 0, 14, 0, 8, 105, 99, 113, 109, 111, 111, 100, 53,
    0, 1, 1, 1, 7]

/-- The number of the last row does not fit an octet, so the icon is that of the other identifier.
A session knows the icon of one record and the mood of the next. -/
theorem drawnFrom_said_crowded :
    (∃ reading c icon, read .crowded (.ofBytes crowdedRecord) = .ok reading c ∧
      reading.record.icon? = some icon ∧ icon.index = 1 ∧
      ∃ s, s.In crowdedRecord ∧ Catalogue.crowded.GivesFor icon s) ∧
    ∃ history s known duck beer, Session.Run {} history s ∧ s.find? "ANN" = some known ∧
      known.advertised.bind Advertised.icon = some duck ∧ duck.index = 2 ∧
      known.icon? = some beer ∧ beer.index = 5 ∧
      (∃ id, Session.heard history (.identifier id) ∧
        Catalogue.standard.GivesFor duck (.identifier id)) ∧
      ∃ s, Session.heard history s ∧ Catalogue.standard.GivesFor beer s := by
  obtain ⟨hread, hknown⟩ := drawnFrom_said
  refine ⟨?_, ?_⟩
  · obtain ⟨reading, c, hok, hicon⟩ : ∃ reading c,
        read .crowded (.ofBytes crowdedRecord) = .ok reading c ∧
          reading.record.icon? = some ⟨1, by decide⟩ := ⟨_, _, rfl, by decide +kernel⟩
    exact ⟨reading, c, _, hok, hicon, rfl, (hread _ _ c reading hok).shown _ hicon⟩
  · obtain ⟨history, s, run, hicons⟩ : ∃ history s, Session.Run {} history s ∧
        (s.find? "ANN").map (fun known =>
          (known.advertised.bind Advertised.icon, known.icon?)) =
            some (some ⟨2, by decide⟩, some ⟨5, by decide⟩) :=
      ⟨_, _, .call (.call .start {} (.receive duckRecord)) {} (.receive beerRecord),
        by decide +kernel⟩
    obtain ⟨known, hfind, hpair⟩ := Option.map_eq_some_iff.mp hicons
    obtain ⟨hduck, hbeer⟩ := Prod.mk.inj hpair
    have hdrawn := hknown {} history s run known (Roster.mem_records_of_find? hfind)
    exact ⟨history, s, known, _, _, run, hfind, hduck, rfl, hbeer, rfl, hdrawn.icon _ hduck,
      hdrawn.shown _ hbeer⟩

end Record
end Whereabouts
