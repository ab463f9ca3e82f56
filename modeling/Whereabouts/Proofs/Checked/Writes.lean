import Whereabouts.Proofs.Checked.Reads
import Whereabouts.Proofs.RoundTrip

/-! # Checked writes

What the writers do, in the steps of a machine.  A length is narrowed to the octet or the word that
announces it, and a run ends with a trap if it does not fit; the room that a text has is a
difference, and what is cut off is a part of a string.

`Puts` says that a run ends, without a trap, with some octets behind the buffer, and `Gives` that
it ends with a value and leaves the machine alone.  Every writer of the library has a checked form,
which puts what the library writes: `puts_record` and `puts_announcement`, from `puts_chain`,
`puts_extras` and `gives_body` below them. -/

namespace Whereabouts
namespace Checked

variable {α β : Type}

/-! ### Steps -/

def put (bytes : Bytes) : Checked Unit := do
  let f ← get
  set { f with buffer := f.buffer ++ bytes }

def putWord16 (v : UInt16) : Checked Unit := put (Bytes.ofWord16 v)

/-- A number as an octet, which it has to fit. -/
def toOctet (n : Nat) : Checked UInt8 :=
  if n < 256 then pure (.ofNat n) else trap .overflow

/-- A number as a word of 16 bits, which it has to fit. -/
def toWord16 (n : Nat) : Checked UInt16 :=
  if n < 65536 then pure (.ofNat n) else trap .overflow

/-- The first octets of a string, at most `limit`. -/
def first (limit : Nat) (bytes : Bytes) : Checked Bytes :=
  slice bytes 0 (min bytes.length limit)

/-- What is written to a string of its own. -/
def written (x : Checked Unit) : Checked Bytes :=
  within [] do
    x
    return (← get).buffer

/-- Writes for a value if there is one. -/
def putIf (o : Option α) (x : α → Checked Unit) : Checked Unit :=
  match o with
  | none => pure ()
  | some a => x a

/-- Writes for the elements of a list, in order. -/
def putAll (x : α → Checked Unit) : List α → Checked Unit
  | [] => pure ()
  | a :: rest => do
      x a
      putAll x rest

/-! ### Runs that write -/

/-- Whether a run ends with a value and leaves everything as it was. -/
def Gives (x : Checked α) (a : α) : Prop := ∀ c, Runs x c a c

/-- Whether a run appends octets and does nothing else. -/
def Puts (x : Checked Unit) (bytes : Bytes) : Prop := ∀ c, Runs x c () (c.append bytes)

variable {x y : Checked Unit} {g : Checked α} {f : α → Checked Unit} {a : α} {b : β}
  {bytes bytes' : Bytes}

theorem puts_put (bytes : Bytes) : Puts (put bytes) bytes := fun _ => rfl

theorem puts_nothing : Puts (pure ()) [] := by
  intro c
  have hc : c.append [] = c := by simp [Cursor.append]
  rw [hc]
  exact runs_pure () c

/-- What is written first stands first. -/
theorem Puts.bind (hx : Puts x bytes) (hy : Puts y bytes') :
    Puts (x >>= fun _ => y) (bytes ++ bytes') := by
  intro c
  have hc : (c.append bytes).append bytes' = c.append (bytes ++ bytes') := by
    simp [Cursor.append]
  rw [← hc]
  exact Runs.bind (hx c) (hy (c.append bytes))

theorem gives_pure (a : α) : Gives (pure a) a := runs_pure a

theorem Gives.bind {f : α → Checked β} (hg : Gives g a) (hf : Gives (f a) b) :
    Gives (g >>= f) b :=
  fun c => Runs.bind (hg c) (hf c)

theorem Gives.puts (hg : Gives g a) (hf : Puts (f a) bytes) : Puts (g >>= f) bytes :=
  fun c => Runs.bind (hg c) (hf c)

theorem Puts.written (h : Puts x bytes) : Gives (written x) bytes := by
  intro c
  have hbuffer : Runs (do
      x
      return (← get).buffer) (.ofBytes []) bytes ((Cursor.ofBytes []).append bytes) :=
    Runs.bind (h (.ofBytes [])) rfl
  exact runs_within hbuffer

theorem puts_if {f : α → Checked Unit} {g : α → Bytes} (h : ∀ a, Puts (f a) (g a))
    (o : Option α) : Puts (putIf o f) ((o.map g).getD []) := by
  cases o with
  | none => exact puts_nothing
  | some a => exact h a

theorem puts_all {f : α → Checked Unit} {g : α → Bytes} (h : ∀ a, Puts (f a) (g a))
    (as : List α) : Puts (putAll f as) (as.flatMap g) := by
  induction as with
  | nil => exact puts_nothing
  | cons a as ih => exact (h a).bind ih

/-! ### Numbers and parts -/

theorem gives_add {m n : Nat} (h : m + n < words) : Gives (add m n) (m + n) := runs_add h

theorem gives_sub {m n : Nat} (h : n ≤ m) : Gives (sub m n) (m - n) := runs_sub h

theorem gives_toOctet {n : Nat} (h : n < 256) : Gives (toOctet n) (.ofNat n) := by
  unfold toOctet
  rw [if_pos h]
  exact gives_pure _

/-- A length beyond its octet ends the run. -/
example (c : Cursor) (v : UInt8) : ¬ Runs (toOctet 256) c v c := nofun

theorem gives_toWord16 {n : Nat} (h : n < 65536) : Gives (toWord16 n) (.ofNat n) := by
  unfold toWord16
  rw [if_pos h]
  exact gives_pure _

theorem gives_first (limit : Nat) (bytes : Bytes) :
    Gives (first limit bytes) (bytes.take limit) := by
  intro c
  have hslice := runs_slice (Nat.zero_le _) (Nat.min_le_left bytes.length limit) c
  have htake : (bytes.drop 0).take (min bytes.length limit - 0) = bytes.take limit := by
    rw [List.drop_zero, Nat.sub_zero, Nat.min_comm, ← List.take_take, List.take_length]
  rwa [htake] at hslice

/-! ### Strings, entries and chains -/

/-- Writes a string behind its length, in one octet. -/
def putBehindOctet (bytes : Bytes) : Checked Unit := do
  let length ← toOctet bytes.length
  put [length]
  put bytes

theorem puts_behindOctet (h : bytes.length ≤ 255) :
    Puts (putBehindOctet bytes) (UInt8.ofNat bytes.length :: bytes) := by
  refine (gives_toOctet (Nat.lt_succ_of_le h)).puts ?_
  exact (puts_put _).bind (puts_put bytes)

/-- Writes a string behind its length, in a word of 16 bits. -/
def putBehindWord16 (bytes : Bytes) : Checked Unit := do
  let length ← toWord16 bytes.length
  putWord16 length
  put bytes

theorem puts_behindWord16 (h : bytes.length ≤ 65535) :
    Puts (putBehindWord16 bytes) (Bytes.ofWord16 (.ofNat bytes.length) ++ bytes) := by
  refine (gives_toWord16 (Nat.lt_succ_of_le h)).puts ?_
  exact (puts_put _).bind (puts_put bytes)

/-- Writes as much of a string as its length octet can announce. -/
def putCounted (bytes : Bytes) : Checked Unit := do
  let kept ← first Bytes.countedLimit bytes
  putBehindOctet kept

theorem puts_counted (bytes : Bytes) : Puts (putCounted bytes) bytes.counted :=
  (gives_first _ bytes).puts (puts_behindOctet (List.length_take_le _ _))

/-- Writes an entry behind its type and length. -/
def putEntry (t : Tlv) : Checked Unit := do
  let kept ← first Tlv.valueLimit t.value
  putWord16 t.type
  putBehindWord16 kept

theorem puts_entry (t : Tlv) : Puts (putEntry t) t.encode := by
  refine (gives_first _ t.value).puts ?_
  rw [Tlv.encode, List.append_assoc]
  exact (puts_put _).bind (puts_behindWord16 t.length_written_le)

def putChain (chain : Chain) : Checked Unit := putAll putEntry chain

theorem puts_chain (chain : Chain) : Puts (putChain chain) (Chain.encode chain) :=
  puts_all puts_entry chain

/-! ### Texts among the extras -/

/-- The name of an encoding, as much of it as is written. -/
def keptName (t : Text) : Checked (Option Bytes) :=
  match t.encoding with
  | none => pure none
  | some name => do
      let kept ← first Text.encodingLimit (Utf8.encode name)
      return some kept

theorem gives_keptName (t : Text) : Gives (keptName t) t.writtenEncoding := by
  unfold keptName Text.writtenEncoding
  cases t.encoding with
  | none => exact gives_pure _
  | some name => exact (gives_first _ (Utf8.encode name)).bind (gives_pure _)

/-- What a body needs beside the octets of its text. -/
def overhead : Option Bytes → Checked Nat
  | none => add 2 2
  | some name => do
      let behind ← add 6 name.length
      add 2 behind

theorem gives_overhead {name : Option Bytes} (h : ∀ n ∈ name, n.length ≤ 64) :
    Gives (overhead name) (Text.overhead name) := by
  cases name with
  | none => exact gives_add (by decide)
  | some name =>
      have hname : name.length ≤ 64 := h name rfl
      have hsum : Text.overhead (some name) = 2 + (6 + name.length) := by
        show 8 + name.length = _
        omega
      rw [hsum]
      exact (gives_add (by unfold words; omega)).bind (gives_add (by unfold words; omega))

/-- Writes the parts of a body behind their lengths. -/
def putBody (kept : Bytes) (name : Option Bytes) : Checked Unit := do
  putBehindWord16 kept
  match name with
  | none => putWord16 0
  | some name => do
      putWord16 Text.hasEncoding
      putWord16 0
      putBehindWord16 name

/-- The body of an entry that holds a text. -/
def body (t : Text) : Checked Bytes := do
  let name ← keptName t
  let beside ← overhead name
  let room ← sub ExtraEntry.bodyLimit beside
  let kept ← first room t.bytes
  let _capacity ← add beside kept.length
  written (putBody kept name)

theorem puts_body (t : Text) : Puts (putBody t.writtenBytes t.writtenEncoding) t.toBody := by
  have hbytes := t.length_writtenBytes_le
  refine (puts_behindWord16 (by omega)).bind ?_
  cases hname : t.writtenEncoding with
  | none => exact puts_put _
  | some name =>
      have hlength := Text.length_writtenEncoding_le hname
      simp only [List.append_assoc]
      exact (puts_put _).bind ((puts_put _).bind (puts_behindWord16 (by omega)))

/-- The room that a body has for its text is no less than nothing, as the name is cut first. -/
theorem gives_body (t : Text) : Gives (body t) t.toBody := by
  have hname : ∀ n ∈ t.writtenEncoding, n.length ≤ 64 := fun _ => Text.length_writtenEncoding_le
  have hbytes := t.length_writtenBytes_le
  have hbeside : Text.overhead t.writtenEncoding ≤ ExtraEntry.bodyLimit := by
    unfold Text.overhead ExtraEntry.bodyLimit
    cases h : t.writtenEncoding with
    | none => decide
    | some name =>
        have := hname name h
        show 8 + name.length ≤ 255
        omega
  refine (gives_keptName t).bind ?_
  refine (gives_overhead hname).bind ?_
  refine (gives_sub hbeside).bind ?_
  refine (gives_first _ t.bytes).bind ?_
  refine (gives_add ?_).bind (puts_body t).written
  show _ + t.writtenBytes.length < words
  unfold ExtraEntry.bodyLimit at hbeside
  unfold words
  omega

/-! ### Blocks -/

/-- Writes an entry of the extras behind its type, number and length. -/
def putExtra (type : ExtraType) (number : UInt8) (body : Bytes) : Checked Unit := do
  let kept ← first ExtraEntry.bodyLimit body
  putWord16 type.code
  put [number]
  putBehindOctet kept

theorem puts_extra (type : ExtraType) (number : UInt8) (body : Bytes) :
    Puts (putExtra type number body) (ExtraEntry.encode type.code number body) := by
  have hparts : ExtraEntry.encode type.code number body =
      Bytes.ofWord16 type.code ++ ([number] ++
        (UInt8.ofNat (body.take ExtraEntry.bodyLimit).length ::
          body.take ExtraEntry.bodyLimit)) := by
    simp [ExtraEntry.encode]
  rw [hparts]
  refine (gives_first _ body).puts ?_
  exact (puts_put _).bind ((puts_put _).bind (puts_behindOctet (List.length_take_le _ _)))

/-- Writes an entry of the extras that holds a text. -/
def putText (type : ExtraType) (t : Text) : Checked Unit := do
  let whole ← body t
  putExtra type Extras.textNumber whole

theorem puts_text (type : ExtraType) (t : Text) :
    Puts (putText type t) (ExtraEntry.encode type.code Extras.textNumber t.toBody) :=
  (gives_body t).puts (puts_extra _ _ _)

def putExtras (cat : Catalogue) (x : Extras) : Checked Unit := do
  putIf x.iconChecksum fun sum => putExtra .iconChecksum sum.kind.number sum.digest
  putIf x.away (putText .statusText)
  putIf x.externalLink (putText .externalLink)
  putIf (x.mood.bind cat.row?) fun row => putExtra .mood 0 (Utf8.encode row.mood)

theorem puts_extras (cat : Catalogue) (x : Extras) : Puts (putExtras cat x) (x.encode cat) := by
  have hjoined : x.encode cat =
      ((x.iconChecksum.map fun sum =>
        ExtraEntry.encode ExtraType.iconChecksum.code sum.kind.number sum.digest).getD []) ++
      (((x.away.map fun t =>
        ExtraEntry.encode ExtraType.statusText.code Extras.textNumber t.toBody).getD []) ++
      (((x.externalLink.map fun t =>
        ExtraEntry.encode ExtraType.externalLink.code Extras.textNumber t.toBody).getD []) ++
      (((x.mood.bind cat.row?).map fun row =>
        ExtraEntry.encode ExtraType.mood.code 0 (Utf8.encode row.mood)).getD []))) := by
    unfold Extras.encode
    cases x.iconChecksum <;> cases x.away <;> cases x.externalLink <;>
      cases x.mood.bind cat.row? <;> simp
  rw [hjoined]
  refine (puts_if (fun sum => puts_extra _ _ _) _).bind ?_
  refine (puts_if (puts_text .statusText) _).bind ?_
  exact (puts_if (puts_text .externalLink) _).bind (puts_if (fun row => puts_extra _ _ _) _)

/-- Writes the identifiers of the rows that stand for something new. -/
def putRows (wanted : Features) : Features → List Capability → Checked Unit
  | _, [] => pure ()
  | covered, row :: rows =>
      if wanted.includes row.features && !covered.includes row.features then do
        put row.id.bytes
        putRows wanted (covered.union row.features) rows
      else putRows wanted covered rows

theorem puts_rows (wanted : Features) (done : List Capability) (covered : Features)
    (rows : List Capability) :
    ∃ chosen : List Capability, (rows.foldl (Catalogue.rowsFor.pick wanted) (done, covered)).1 =
        chosen.reverse ++ done ∧
      Puts (putRows wanted covered rows) (chosen.flatMap fun row => row.id.bytes) := by
  induction rows generalizing done covered with
  | nil => exact ⟨[], rfl, puts_nothing⟩
  | cons row rows ih =>
      rw [List.foldl_cons, Catalogue.rowsFor.pick, putRows]
      split_ifs with hnew
      · obtain ⟨chosen, hchosen, hputs⟩ := ih (row :: done) (covered.union row.features)
        refine ⟨row :: chosen, ?_, (puts_put _).bind hputs⟩
        rw [hchosen]
        simp
      · exact ih done covered

def putBlock (cat : Catalogue) (features : Features) (icon : Option Icon) : Checked Unit := do
  putRows features .none cat.capabilities
  putIf (icon.bind cat.row?) fun row => put row.id.bytes

theorem puts_block (cat : Catalogue) (features : Features) (icon : Option Icon) :
    Puts (putBlock cat features icon) (cat.encodeBlock features icon) := by
  obtain ⟨chosen, hchosen, hputs⟩ := puts_rows features [] .none cat.capabilities
  have hrows : cat.rowsFor features = chosen := by
    rw [Catalogue.rowsFor, hchosen, List.append_nil, List.reverse_reverse]
  unfold Catalogue.encodeBlock
  rw [hrows]
  refine hputs.bind ?_
  cases icon.bind cat.row? with
  | none => exact puts_nothing
  | some row => exact puts_put row.id.bytes

/-! ### Records and announcements -/

/-- The entry for a value if there is one. -/
def entryIf (type : EntryType) (o : Option α) (value : α → Checked Unit) : Checked (Option Tlv) :=
  match o with
  | none => pure none
  | some a => do
      let bytes ← written (value a)
      return some ⟨type.code, bytes⟩

theorem gives_entryIf (type : EntryType) (o : Option α) {value : α → Checked Unit}
    {g : α → Bytes} (h : ∀ a, Puts (value a) (g a)) :
    Gives (entryIf type o value) (o.map fun a => ⟨type.code, g a⟩) := by
  cases o with
  | none => exact gives_pure _
  | some a => exact (h a).written.bind (gives_pure _)

/-- The entries of the counted block, of which those with capabilities and extras are given. -/
def blockWith (aol : Bool) (r : Record) (advertised extras : Option Tlv) : Chain :=
  let word16 (type : EntryType) (v : UInt16) : Tlv := .ofWord16 type.code v
  let word32 (type : EntryType) (v : UInt32) : Tlv := .ofWord32 type.code v
  let sessionType := if aol then EntryType.sessionLengthAol else EntryType.sessionLength
  [r.userClass.map fun c => word16 .userClass c.bits,
    r.createdAt.map (word32 .createdAt),
    r.onlineSince.map (word32 .onlineSince),
    r.idleMinutes.map (word16 .idleMinutes),
    r.memberSince.map (word32 .memberSince),
    r.icqStatus.map fun s => word32 .icqStatus s.toWord32,
    r.externalIp.map (word32 .externalIp),
    advertised,
    r.sessionLength.map (word32 sessionType),
    extras].filterMap id

/-- The entries of the counted block. -/
def blockChain (cat : Catalogue) (aol : Bool) (r : Record) : Checked Chain := do
  let advertised ← entryIf .capabilities r.advertised fun a => putBlock cat a.features a.icon
  let extras ← entryIf .extras r.extras (putExtras cat)
  return blockWith aol r advertised extras

theorem gives_blockChain (cat : Catalogue) (aol : Bool) (r : Record) :
    Gives (blockChain cat aol r) (r.blockChain cat aol) := by
  have hadvertised := gives_entryIf .capabilities r.advertised fun a =>
    puts_block cat a.features a.icon
  have hextras := gives_entryIf .extras r.extras (puts_extras cat)
  exact hadvertised.bind (hextras.bind (gives_pure _))

def putRecord (cat : Catalogue) (aol : Bool) (r : Record) : Checked Unit := do
  putCounted (Utf8.encode r.handle)
  putWord16 r.warningLevel
  let block ← blockChain cat aol r
  let count ← toWord16 block.length
  putWord16 count
  putChain block
  if r.profile.isSome || r.awayMessage.isSome then
    putChain (Trailer.texts r.profile r.awayMessage)
  else pure ()

theorem puts_record (cat : Catalogue) (aol : Bool) (r : Record) :
    Puts (putRecord cat aol r) (r.encode cat aol) := by
  have hcount := Record.length_blockChain_le cat aol r
  have htrailer : Puts (if r.profile.isSome || r.awayMessage.isSome then
        putChain (Trailer.texts r.profile r.awayMessage)
      else pure ()) (Chain.encode (Trailer.texts r.profile r.awayMessage)) := by
    split_ifs with htexts
    · exact puts_chain _
    · obtain ⟨hprofile, haway⟩ : r.profile = none ∧ r.awayMessage = none := by simpa using htexts
      rw [hprofile, haway]
      exact puts_nothing
  unfold Record.encode
  simp only [List.append_assoc]
  refine (puts_counted _).bind ((puts_put _).bind ?_)
  refine (gives_blockChain cat aol r).puts ?_
  refine (gives_toWord16 (by omega)).puts ?_
  exact (puts_put _).bind ((puts_chain _).bind htrailer)

/-- The chain of an announcement. -/
def announcedChain (cat : Catalogue) (a : Announcement) : Checked Chain := do
  let block ← written (putBlock cat a.features a.icon)
  return Trailer.texts a.profile a.awayMessage ++ [⟨TrailerType.capabilities.code, block⟩]

theorem gives_announcedChain (cat : Catalogue) (a : Announcement) :
    Gives (announcedChain cat a) (a.toChain cat) :=
  (puts_block cat a.features a.icon).written.bind (gives_pure _)

def putAnnouncement (cat : Catalogue) (a : Announcement) : Checked Unit := do
  let chain ← announcedChain cat a
  putChain chain

theorem puts_announcement (cat : Catalogue) (a : Announcement) :
    Puts (putAnnouncement cat a) (a.encode cat) :=
  (gives_announcedChain cat a).puts (puts_chain _)

end Checked
end Whereabouts
