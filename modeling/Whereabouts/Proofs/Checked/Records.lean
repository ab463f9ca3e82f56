import Whereabouts.Proofs.Checked.Blocks
import Whereabouts.Proofs.Checked.Chain
import Whereabouts.Proofs.Checked.Extras
import Whereabouts.Proofs.Counts

/-! # Checked records

A machine reads a record entry by entry and counts on the way what it does not understand.  What
entries count is bounded by the octets that they take, so every sum is a word
(`runs_foldlM_addEntry`, `runs_addBlocks`).

`follows_readBlock` and `follows_read` say that a machine reads what the library reads. -/

namespace Whereabouts
namespace Checked

/-! ### Entries -/

/-- Puts a number that stands in the value of an entry into a reading. -/
def addNumber {α : Type} (number : Checked α) (r : Reading) (t : Tlv) (entry : α → Entry) :
    Checked Reading := do
  match ← within t.value (observing number) with
  | .ok v => return { r with record := Entry.apply r.record (entry v) }
  | .error _ => return r

/-- Puts a block of identifiers that stands in the value of an entry into a reading. -/
def addBlock (block : Checked (Scan × Nat)) (remark : Bytes → Remark) (r : Reading) (t : Tlv) :
    Checked Reading := do
  let s ← within t.value block
  let unmatched ← add r.unmatched s.2
  return { r with
    record := r.record.addScan s.1
    unmatched
    remarks := r.remarks ++ s.1.unmatched.map remark }

/-- Puts an entry of the counted block into a reading. -/
def addEntry (cat : Catalogue) (r : Reading) (t : Tlv) : Checked Reading := do
  match EntryType.ofCode? t.type with
  | some .userClass => addNumber word16 r t fun v => .userClass ⟨v⟩
  | some .createdAt => addNumber word32 r t .createdAt
  | some .onlineSince => addNumber word32 r t .onlineSince
  | some .memberSince => addNumber word32 r t .memberSince
  | some .idleMinutes => addNumber word16 r t .idleMinutes
  | some .sessionLength | some .sessionLengthAol => addNumber word32 r t .sessionLength
  | some .icqStatus => addNumber word32 r t fun v => .icqStatus (.ofWord32 v)
  | some .externalIp => addNumber word32 r t .externalIp
  | some .capabilities => addBlock (scan cat t.value.length) .unmatched r t
  | some .shortCapabilities => addBlock (scanShort cat t.value.length) .unmatchedShort r t
  | some .extras =>
      let started := { r.record with extras := some (r.record.extras.getD {}) }
      within t.value (extrasAfter cat { r with record := started })
  | none =>
      let unknown ← add r.unknown 1
      return { r with
        unknown
        remarks := r.remarks ++ [.unknownEntry t.type t.value.length] }

/-! ### Records -/

def readBlock (cat : Catalogue) : Checked Reading := do
  let handle ← counted
  let warningLevel ← word16
  let count ← word16
  let limit ← remaining
  let found ← countedChain count limit
  let start : Record := { handle := Utf8.decodeLossy handle, warningLevel }
  let r ← found.foldlM (fun r f => addEntry cat r f.toTlv) ⟨start, 0, 0, Remark.ofFound found⟩
  return { r with
    remarks := r.remarks ++ [.blockRead (Utf8.decodeLossy handle) found.length r.unknown] }

/-- One round of the loop over the capability blocks of a trailer: the `occurrence`-th goes into the
reading. -/
def nextBlock (cat : Catalogue) (entries : Chain) :
    Nat × Reading → Checked ((Nat × Reading) ⊕ Reading)
  | (occurrence, r) => do
      match ← nth? entries TrailerType.capabilities.code occurrence with
      | none => return .inr r
      | some t =>
          let r ← addBlock (scan cat t.value.length) .unmatched r t
          let next ← add occurrence 1
          return .inl (next, r)

/-- Puts the capability blocks of a trailer into a reading, from an occurrence on. -/
def addBlocks (cat : Catalogue) (entries : Chain) (occurrence : Nat) (r : Reading) :
    Checked Reading :=
  loop (nextBlock cat entries) (occurrence, r)

def readTrailer (cat : Catalogue) (r : Reading) : Checked Reading := do
  let left ← remaining
  let found ← chain left
  let entries := Chain.ofFound found
  let texts := { r.record with
    profile := (Trailer.textOf entries .profile .profileEncoding).or r.record.profile
    awayMessage := (Trailer.textOf entries .awayMessage .awayEncoding).or r.record.awayMessage }
  let r ← addBlocks cat entries 1 { r with
    record := texts
    remarks := r.remarks ++ Remark.ofFound found }
  let strangers := entries.filter fun t => (TrailerType.ofCode? t.type).isNone
  let unknown ← add r.unknown strangers.length
  return { r with unknown }

def read (cat : Catalogue) : Checked Reading := do
  let block ← readBlock cat
  let left ← remaining
  if left = 0 then return block else readTrailer cat block

variable (cat : Catalogue) {c : Cursor} {r : Reading} {t : Tlv}

/-! ### What an entry adds -/

theorem runs_addNumber {α : Type} {width : Nat} {front? : Bytes → Option α}
    (hfront : ∀ bytes, (front? bytes).isSome ↔ width ≤ bytes.length) {entry : α → Entry}
    (hquiet : ∀ v, (entry v).Quiet) {e : Entry} (he : e = ((front? t.value).map entry).getD .void)
    (ht : t.value.length < 2 ^ 63) :
    Runs (addNumber (number width front?) r t entry) c (r.addEntry e) c := by
  have hvalue : (Cursor.ofBytes t.value).Addressable := ht
  unfold addNumber
  cases hv : front? t.value with
  | some v =>
      rw [he, hv, Option.map_some, Option.getD_some, r.addEntry_of_quiet (hquiet v)]
      exact (runs_within (runs_observing (runs_number hfront hvalue hv))).bind (runs_pure _ c)
  | none =>
      have hfails := fails_number hfront (c := .ofBytes t.value) hv
      rw [he, hv, Option.map_none, Option.getD_none, r.addEntry_of_quiet Entry.quiet_void]
      exact (runs_within (observing_apply hfails)).bind (runs_pure r c)

theorem runs_addWord16 {entry : UInt16 → Entry} (hquiet : ∀ v, (entry v).Quiet)
    (ht : t.value.length < 2 ^ 63) :
    Runs (addNumber word16 r t entry) c (r.addEntry (.ofWord16 t entry)) c := by
  refine runs_addNumber isSome_leading16? hquiet ?_ ht
  unfold Entry.ofWord16 Tlv.word16?
  cases Bytes.leading16? t.value <;> rfl

theorem runs_addWord32 {entry : UInt32 → Entry} (hquiet : ∀ v, (entry v).Quiet)
    (ht : t.value.length < 2 ^ 63) :
    Runs (addNumber word32 r t entry) c (r.addEntry (.ofWord32 t entry)) c := by
  refine runs_addNumber isSome_leading32? hquiet ?_ ht
  unfold Entry.ofWord32 Tlv.word32?
  cases Bytes.leading32? t.value <;> rfl

theorem runs_addBlock {block : Checked (Scan × Nat)} {s : Scan} {c' : Cursor}
    (hblock : Runs block (.ofBytes t.value) (s, s.unmatched.length) c') (remark : Bytes → Remark)
    (hword : r.unmatched + s.unmatched.length < words) (c : Cursor) :
    Runs (addBlock block remark r t) c (r.addScan remark s) c :=
  (runs_within hblock).bind ((runs_add hword c).bind (runs_pure _ c))

theorem runs_scan (value : Bytes) (h : value.length < 2 ^ 63) :
    ∃ c', Runs (scan cat value.length) (.ofBytes value)
      (cat.scan value, (cat.scan value).unmatched.length) c' := by
  have hscan := (follows_scan cat value.length (.ofBytes value) h).runs rfl
  rw [Cursor.unread_ofBytes, List.take_length] at hscan
  exact ⟨_, hscan⟩

theorem runs_scanShort (value : Bytes) (h : value.length < 2 ^ 63) :
    ∃ c', Runs (scanShort cat value.length) (.ofBytes value)
      (cat.scanShort value, (cat.scanShort value).unmatched.length) c' := by
  have hscan := (follows_scanShort cat value.length (.ofBytes value) h).runs rfl
  rw [Cursor.unread_ofBytes, List.take_length] at hscan
  exact ⟨_, hscan⟩

/-- An entry is put into a reading if there is room for what it may count. -/
theorem runs_addEntry (ht : t.value.length < 2 ^ 63)
    (hunmatched : r.unmatched + (Tlv.headerSize + t.value.length) < words)
    (hunknown : r.unknown + (Tlv.headerSize + t.value.length) < words) (c : Cursor) :
    Runs (addEntry cat r t) c (r.addEntry (Entry.ofTlv cat t)) c := by
  unfold addEntry Entry.ofTlv
  cases EntryType.ofCode? t.type with
  | none => exact (runs_add (by unfold Tlv.headerSize at hunknown; omega) c).bind (runs_pure _ c)
  | some type =>
      cases type with
      | capabilities =>
          obtain ⟨c', hscan⟩ := runs_scan cat t.value ht
          have hcount := cat.length_unmatched_scan_le t.value
          exact runs_addBlock (r := r) hscan .unmatched (by omega) c
      | shortCapabilities =>
          obtain ⟨c', hscan⟩ := runs_scanShort cat t.value ht
          have hcount := cat.length_unmatched_scanShort_le t.value
          exact runs_addBlock (r := r) hscan .unmatchedShort (by omega) c
      | extras =>
          have hvalue : (Cursor.ofBytes t.value).Addressable := ht
          dsimp only
          rw [Reading.addEntry_extras]
          have hleft : (Cursor.ofBytes t.value).remaining = t.value.length := rfl
          obtain ⟨c', hextras⟩ := runs_extrasAfter cat (c := .ofBytes t.value)
            (r := { r with record := { r.record with extras := some (r.record.extras.getD {}) } })
            hvalue (Nat.le_refl _) (by rw [hleft]; dsimp only; omega)
          exact runs_within hextras
      | userClass | idleMinutes =>
          exact runs_addWord16 (fun _ => ⟨rfl, rfl, rfl⟩) ht
      | _ => exact runs_addWord32 (fun _ => ⟨rfl, rfl, rfl⟩) ht

/-- All entries of a block are put into a reading if there is room for the octets that they
take. -/
theorem runs_foldlM_addEntry {found : List Tlv.Found} (hfound : Chain.foundSize found < 2 ^ 63)
    (hunmatched : r.unmatched + Chain.foundSize found < words)
    (hunknown : r.unknown + Chain.foundSize found < words) (c : Cursor) :
    Runs (found.foldlM (fun r f => addEntry cat r f.toTlv) r) c
      (((Chain.ofFound found).map (Entry.ofTlv cat)).foldl Reading.addEntry r) c := by
  induction found generalizing r with
  | nil => exact runs_pure r c
  | cons f found ih =>
      have hcons : Chain.foundSize (f :: found) =
          Tlv.headerSize + f.value.length + Chain.foundSize found := rfl
      have hvalue : f.toTlv.value = f.value := rfl
      obtain ⟨hcounted, hcounted'⟩ := Entry.countsAtMost_ofTlv cat f.toTlv
      rw [hvalue] at hcounted hcounted'
      have hunmatched' : (r.addEntry (Entry.ofTlv cat f.toTlv)).unmatched =
          r.unmatched + (Entry.ofTlv cat f.toTlv).unmatched.length := rfl
      have hunknown' : (r.addEntry (Entry.ofTlv cat f.toTlv)).unknown =
          r.unknown + (Entry.ofTlv cat f.toTlv).unknownTypes.length := rfl
      have hfirst := runs_addEntry cat (t := f.toTlv) (r := r) (by rw [hvalue]; omega)
        (by rw [hvalue]; omega) (by rw [hvalue]; omega) c
      rw [List.foldlM_cons]
      exact hfirst.bind (ih (by omega) (by omega) (by omega))

theorem follows_readBlock : Follows (readBlock cat) (Record.readBlock cat) := by
  refine follows_counted.bind fun handle => follows_word16.bind fun level =>
    follows_word16.bind fun count => ?_
  intro c hc
  have hchain := (follows_countedChain c.remaining count c hc).runs rfl
  rw [← Cursor.length_unread] at hchain
  have hsize := Nat.lt_of_le_of_lt (c.foundSize_le_position count.toNat c.unread.length)
    (Nat.lt_of_le_of_lt (Cursor.position_le _) hc)
  have hwords : Chain.foundSize (Chain.splitCounted count.toNat c.unread.length c.unread).1 < words :=
    Nat.lt_trans hsize (by decide)
  refine .of_runs rfl ?_ rfl
  rw [Reading.ofBlock_eq]
  refine (runs_remaining c).bind ?_
  rw [← Cursor.length_unread]
  have hentries := runs_foldlM_addEntry cat
    (r := ⟨{ handle := Utf8.decodeLossy handle, warningLevel := level }, 0, 0,
      Remark.ofFound (Chain.splitCounted count.toNat c.unread.length c.unread).1⟩)
    hsize (by rwa [Nat.zero_add]) (by rwa [Nat.zero_add])
  exact hchain.bind ((hentries _).bind (runs_pure _ _))

/-! ### Trailers -/

/-- All blocks of a trailer are put into a reading if there is room for the octets that they
take. -/
theorem runs_addBlocks {entries : Chain} {blocks : List Tlv} {k : Nat}
    (hblocks : (Chain.ofType entries TrailerType.capabilities.code).drop k = blocks)
    {room : Nat} (hroom : (blocks.map fun t => Tlv.headerSize + t.value.length).sum ≤ room)
    (haddressable : room < 2 ^ 63) (hunmatched : r.unmatched + room < words)
    (hoccurrence : k + 1 + room < words) (c : Cursor) :
    Runs (addBlocks cat entries (k + 1) r) c
      ((blocks.map fun t => cat.scan t.value).foldl (Reading.addScan .unmatched) r) c := by
  induction blocks generalizing k r room with
  | nil =>
      have hnone : Chain.nth? entries TrailerType.capabilities.code (k + 1) = none :=
        List.getElem?_eq_none (List.drop_eq_nil_iff.mp hblocks)
      refine Runs.loop_last ((runs_nth? entries _ (k + 1) c).bind ?_)
      rw [hnone]
      exact runs_pure _ c
  | cons t blocks ih =>
      have hsome : Chain.nth? entries TrailerType.capabilities.code (k + 1) = some t := by
        show (Chain.ofType entries _)[k]? = some t
        have hfirst := congrArg (fun l => l[0]?) hblocks
        simpa using hfirst
      have hbehind : (Chain.ofType entries TrailerType.capabilities.code).drop (k + 1) = blocks := by
        rw [← List.drop_drop, hblocks]
        rfl
      rw [List.map_cons, List.sum_cons] at hroom
      have hheader : Tlv.headerSize = 4 := rfl
      obtain ⟨c', hscan⟩ := runs_scan cat t.value (by omega)
      have hcount := cat.length_unmatched_scan_le t.value
      have hadd : (r.addScan .unmatched (cat.scan t.value)).unmatched =
          r.unmatched + (cat.scan t.value).unmatched.length := rfl
      have hround : Runs (nextBlock cat entries (k + 1, r)) c
          (.inl (k + 1 + 1, r.addScan .unmatched (cat.scan t.value))) c := by
        refine (runs_nth? entries _ (k + 1) c).bind ?_
        rw [hsome]
        exact (runs_addBlock hscan .unmatched (by omega) c).bind <|
          (runs_add (by omega) c).bind (runs_pure _ c)
      exact hround.loop_next (ih hbehind (Nat.le_refl _) (by omega) (by omega) (by omega))

theorem runs_readTrailer (hc : c.Addressable) (hunmatched : r.unmatched ≤ c.position)
    (hunknown : r.unknown ≤ c.position) :
    Runs (readTrailer cat r) c
      (r.addTrailer cat (Chain.split c.unread.length c.unread).1)
      (c.leaving (Chain.split c.unread.length c.unread).2.length) := by
  have hchain : Runs (chain c.unread.length) c (Chain.split c.unread.length c.unread).1
      (c.leaving (Chain.split c.unread.length c.unread).2.length) :=
    (follows_chain c.unread.length c hc).runs rfl
  have hsplit := Chain.foundSize_splitAfter c.unread.length c.unread.length [] c.unread
  change Chain.foundSize (Chain.split c.unread.length c.unread).1 + _ = 0 + _ at hsplit
  generalize (Chain.split c.unread.length c.unread).1 = found at hchain hsplit ⊢
  generalize c.leaving (Chain.split c.unread.length c.unread).2.length = c' at hchain ⊢
  -- What was counted lies in front of the position, and what the trailer can add lies behind it.
  have hsize : c.position + Chain.foundSize found ≤ c.buffer.length := by
    have hposition := position_add_le (Nat.le_refl c.remaining)
    rw [← Cursor.length_unread] at hposition
    omega
  have hlength : c.buffer.length < 2 ^ 63 := hc
  have hwords : words = 2 ^ 64 := rfl
  have hblocks : Runs (addBlocks cat (Chain.ofFound found) 1 (r.addTexts found)) c'
      (((Chain.ofType (Chain.ofFound found) TrailerType.capabilities.code).map
        fun t => cat.scan t.value).foldl (Reading.addScan .unmatched) (r.addTexts found)) c' :=
    runs_addBlocks cat (k := 0) (r := r.addTexts found) rfl (Chain.sum_ofType_le found _) (by omega)
      (show r.unmatched + _ < words by omega) (by omega) c'
  have hstrangers : ((Chain.ofFound found).filter fun t =>
      (TrailerType.ofCode? t.type).isNone).length ≤ Chain.foundSize found := by
    refine Nat.le_trans (List.length_filter_le _ _) ?_
    unfold Chain.ofFound
    rw [List.length_map]
    exact Chain.length_le_foundSize found
  have hunknown' : (((Chain.ofType (Chain.ofFound found) TrailerType.capabilities.code).map
      fun t => cat.scan t.value).foldl (Reading.addScan .unmatched) (r.addTexts found)).unknown +
        ((Chain.ofFound found).filter fun t => (TrailerType.ofCode? t.type).isNone).length <
          words := by
    rw [Reading.foldl_addScan]
    show r.unknown + _ < words
    omega
  rw [Reading.addTrailer_eq]
  refine (runs_remaining c).bind ?_
  rw [← Cursor.length_unread]
  exact hchain.bind (hblocks.bind ((runs_add hunknown' c').bind (runs_pure _ c')))

/-- **A machine reads a record as the library does**, without a trap and without running on. -/
theorem follows_read : Follows (read cat) (Record.read cat) := by
  intro c hc
  refine (follows_readBlock cat c hc).bind fun block c' hblock hbuffer => ?_
  have hc' := hc.of_buffer hbuffer
  obtain ⟨hunmatched, hunknown⟩ := Record.counts_of_readBlock hblock
  have hremaining := runs_remaining c'
  refine ⟨?_, ?_⟩
  · rw [Reader.get_bind, bind_apply hremaining]
    split_ifs with hleft
    · exact runs_pure block c'
    · exact runs_readTrailer cat hc' hunmatched hunknown
  · rw [Reader.get_bind]
    split_ifs with hleft <;> rfl

end Checked
end Whereabouts
