import Mathlib.Data.List.Basic
import Whereabouts.Proofs.Checked.Chain

/-! # What a chain takes from a cursor

A chain is read entry by entry, and each entry takes octets and room from those behind it.  `Walk`
is a run of such steps; where it ends, no header fits or the count is used up (`exists_reads`).

All that is said of one step carries over to a run.  The entries, with the lengths that they
declare, are the octets that were taken; only the last of them can be shorter than it declares, and
then nothing is left (`Chain.read_takes`).  A chain that was written is read back wherever it
stands, up to what a length can announce (`Chain.read_write`).

Both are said of the library and of a machine that counts what it has used up (`Reads`). -/

namespace Whereabouts

/-! ### One entry -/

namespace Tlv

/-- Writes an entry behind the buffer: its type, its length and its value. -/
def write (t : Tlv) (c : Cursor) : Cursor :=
  ((c.append (Bytes.ofWord16 t.type)).append
    (Bytes.ofWord16 (UInt16.ofNat t.written.length))).append t.written

/-- The entry that declares the octets it has. -/
def Found.shortened (f : Found) : Found := { f with declared := UInt16.ofNat f.value.length }

variable {f : Found}

theorem Found.written_toTlv (h : f.value.length ≤ f.declared.toNat) : f.toTlv.written = f.value := by
  have hdeclared := f.declared.toNat_lt
  have hlimit : f.value.length ≤ valueLimit := by
    unfold valueLimit
    omega
  exact List.take_of_length_le hlimit

theorem Found.encode_toTlv (h : f.value.length ≤ f.declared.toNat) :
    f.toTlv.encode = f.shortened.bytes := by
  unfold encode
  rw [written_toTlv h]
  rfl

theorem Found.shortened_of_not_clamped (h : f.value.length ≤ f.declared.toNat)
    (hwhole : f.isClamped = false) : f.shortened = f := by
  have hlength : f.value.length = f.declared.toNat := by
    simp only [Found.isClamped, decide_eq_false_iff_not] at hwhole
    omega
  unfold shortened
  rw [hlength, UInt16.ofNat_toNat]

end Tlv

namespace Chain

/-! ### Entries one behind the other -/

/-- Entries that stand one behind the other at the front of some octets, with the room and the octets
that are left behind them. -/
inductive Walk : Nat → Bytes → List Tlv.Found → Nat → Bytes → Prop
  | refl (room : Nat) (bytes : Bytes) : Walk room bytes [] room bytes
  | step {room room' : Nat} {bytes rest left : Bytes} {f : Tlv.Found} {found : List Tlv.Found}
      (first : Tlv.split? room bytes = some (f, rest))
      (behind : Walk (room - (Tlv.headerSize + f.value.length)) rest found room' left) :
      Walk room bytes (f :: found) room' left

variable {room room' room'' count : Nat} {bytes left left' : Bytes} {found found' : List Tlv.Found}

theorem Walk.trans (h : Walk room bytes found room' left) (h' : Walk room' left found' room'' left') :
    Walk room bytes (found ++ found') room'' left' := by
  induction h with
  | refl _ _ => exact h'
  | step first _ ih => exact .step first (ih h')

/-- Every octet belongs to an entry or is left. -/
theorem Walk.joined (h : Walk room bytes found room' left) :
    bytes = found.flatMap Tlv.Found.bytes ++ left := by
  induction h with
  | refl _ _ => rfl
  | step first _ ih =>
      rw [List.flatMap_cons, List.append_assoc, ← ih]
      exact (Tlv.frontOf_split? first).joined

/-- Room that is left and room that was used are all the room. -/
theorem Walk.room_eq (h : Walk room bytes found room' left) : room' + foundSize found = room := by
  induction h with
  | refl room _ => exact Nat.add_zero room
  | @step room room' _ _ _ f found first _ ih =>
      have hwithin := (Tlv.frontOf_split? first).within
      have hcons : foundSize (f :: found) = Tlv.headerSize + f.value.length + foundSize found := rfl
      omega

theorem length_flatMap_bytes (found : List Tlv.Found) :
    (found.flatMap Tlv.Found.bytes).length = foundSize found := by
  rw [List.length_flatMap]
  simp only [Tlv.Found.length_bytes]
  rfl

theorem Walk.length_eq (h : Walk room bytes found room' left) :
    bytes.length = foundSize found + left.length := by
  rw [h.joined, List.length_append, length_flatMap_bytes]

theorem Walk.length_le (h : Walk room bytes found room' left) : found.length ≤ bytes.length := by
  have hlength := h.length_eq
  have hfound := length_le_foundSize found
  omega

theorem Walk.le_declared (h : Walk room bytes found room' left) :
    ∀ f ∈ found, f.value.length ≤ f.declared.toNat := by
  induction h with
  | refl _ _ => exact fun _ hf => (List.not_mem_nil hf).elim
  | step first _ ih => exact List.forall_mem_cons.mpr ⟨(Tlv.frontOf_split? first).le_declared, ih⟩

theorem Walk.eq_nil (h : Walk room bytes found room' left) (hend : room = 0 ∨ bytes = []) :
    found = [] ∧ room' = room ∧ left = bytes := by
  cases h with
  | refl _ _ => exact ⟨rfl, rfl, rfl⟩
  | step first _ =>
      have hnone : Tlv.split? room bytes = none := by
        rw [Tlv.split?_eq_none_iff, Tlv.headerSize]
        rcases hend with rfl | rfl
        · omega
        · simp
      rw [hnone] at first
      cases first

/-- Only the last entry can be cut, and it is only if the room or the octets are used up. -/
theorem Walk.whole_or_exhausted (h : Walk room bytes found room' left) :
    (∀ f ∈ found, f.isClamped = false) ∨
      ∃ front last, found = front ++ [last] ∧ (∀ f ∈ front, f.isClamped = false) ∧
        last.isClamped = true ∧ (room' = 0 ∨ left = []) := by
  induction h with
  | refl _ _ => exact .inl fun _ hf => (List.not_mem_nil hf).elim
  | @step room room' bytes rest left f found first behind ih =>
      cases hclamped : f.isClamped with
      | true =>
          have hexhausted := (Tlv.frontOf_split? first).exhausted hclamped
          have hend : room - (Tlv.headerSize + f.value.length) = 0 ∨ rest = [] := by
            rcases hexhausted with hroom | hrest
            · exact .inl (by omega)
            · exact .inr hrest
          obtain ⟨rfl, rfl, rfl⟩ := behind.eq_nil hend
          exact .inr ⟨[], f, rfl, fun _ hf => (List.not_mem_nil hf).elim, hclamped, hend⟩
      | false =>
          rcases ih with hwhole | ⟨front, last, rfl, hwhole, hlast, hend⟩
          · exact .inl (List.forall_mem_cons.mpr ⟨hclamped, hwhole⟩)
          · exact .inr ⟨f :: front, last, rfl, List.forall_mem_cons.mpr ⟨hclamped, hwhole⟩, hlast, hend⟩

/-- A walk is what is split off, if it stops at the count or where nothing more is split off. -/
theorem Walk.splitAfter_eq (h : Walk room bytes found room' left) (hle : found.length ≤ count)
    (hend : found.length < count → Tlv.split? room' left = none) (done : List Tlv.Found) :
    splitAfter count room done bytes = (done.reverse ++ found, left) := by
  induction h generalizing count done with
  | refl room bytes =>
      rw [List.append_nil]
      cases count with
      | zero => rfl
      | succ count =>
          rw [splitAfter, hend (Nat.succ_pos count)]
  | @step room room' bytes rest left f found first _ ih =>
      obtain ⟨count, rfl⟩ : ∃ k, count = k + 1 := ⟨count - 1, by simp at hle; omega⟩
      rw [List.length_cons] at hle hend
      rw [splitAfter, first]
      dsimp only
      rw [ih (Nat.le_of_succ_le_succ hle) (fun hlt => hend (Nat.succ_lt_succ hlt)),
        List.reverse_cons, List.append_assoc]
      rfl

theorem exists_walk (count room : Nat) (bytes : Bytes) :
    ∃ found room' left, Walk room bytes found room' left ∧ found.length ≤ count ∧
      (found.length < count → Tlv.split? room' left = none) := by
  induction count generalizing room bytes with
  | zero => exact ⟨[], room, bytes, .refl room bytes, Nat.le_refl 0, fun h => absurd h (Nat.lt_irrefl 0)⟩
  | succ count ih =>
      cases hsplit : Tlv.split? room bytes with
      | none => exact ⟨[], room, bytes, .refl room bytes, Nat.zero_le _, fun _ => hsplit⟩
      | some front =>
          obtain ⟨f, rest⟩ := front
          obtain ⟨found, room', left, hwalk, hle, hend⟩ :=
            ih (room - (Tlv.headerSize + f.value.length)) rest
          exact ⟨f :: found, room', left, .step hsplit hwalk, Nat.succ_le_succ hle,
            fun h => hend (Nat.lt_of_succ_lt_succ h)⟩

theorem Walk.split?_eq_none (h : Walk room bytes found room' left)
    (hend : found.length < bytes.length → Tlv.split? room' left = none) :
    Tlv.split? room' left = none := by
  rcases Nat.lt_or_ge found.length bytes.length with hlt | hge
  · exact hend hlt
  · -- An entry takes more than one octet, so there are no octets.
    have hlength := h.length_eq
    have hheaders := headerSize_mul_length_le found
    rw [Tlv.split?_eq_none_iff]
    unfold Tlv.headerSize at hheaders ⊢
    omega

/-- Entries that declare no less than they have take on the wire what they took. -/
theorem encodedLength_ofFound (h : ∀ f ∈ found, f.value.length ≤ f.declared.toNat) :
    encodedLength (ofFound found) = foundSize found := by
  induction found with
  | nil => rfl
  | cons f found ih =>
      obtain ⟨hf, hfound⟩ := List.forall_mem_cons.mp h
      have hsize : f.toTlv.size = Tlv.headerSize + f.value.length :=
        congrArg (fun value => Tlv.headerSize + value.length) (Tlv.Found.written_toTlv hf)
      show f.toTlv.size + encodedLength (ofFound found) = _
      rw [ih hfound, hsize]
      rfl

/-- Entries that are as long as they declare are written as they were found. -/
theorem encode_ofFound (h : ∀ f ∈ found, f.value.length ≤ f.declared.toNat)
    (hwhole : ∀ f ∈ found, f.isClamped = false) :
    encode (ofFound found) = found.flatMap Tlv.Found.bytes := by
  unfold encode ofFound
  rw [List.flatMap_map]
  refine List.flatMap_congr fun f hf => ?_
  rw [Tlv.Found.encode_toTlv (h f hf), Tlv.Found.shortened_of_not_clamped (h f hf) (hwhole f hf)]

/-! ### Reading from a cursor -/

/-- Reads entries from at most `limit` octets, and no more of them than a count says, if there is
one. -/
def read : Option UInt16 → Nat → Reader (List Tlv.Found)
  | none, limit => Reader.parse (split limit)
  | some count, limit => Reader.parse (splitCounted count.toNat limit)

end Chain

/-- Reads entries on a machine. -/
def Checked.entries : Option UInt16 → Nat → Checked (List Tlv.Found)
  | none, limit => chain limit
  | some count, limit => countedChain count limit

theorem Checked.follows_entries (count? : Option UInt16) (limit : Nat) :
    Follows (entries count? limit) (Chain.read count? limit) := by
  cases count? with
  | none => exact follows_chain limit
  | some count => exact follows_countedChain limit count

namespace Chain

/-- Whether entries are read and where the cursor is then: in the library, and on a machine that can
hold the buffer. -/
structure Reads (count? : Option UInt16) (limit : Nat) (c : Cursor) (found : List Tlv.Found)
    (c' : Cursor) : Prop where
  library : read count? limit c = .ok found c'
  machine : c.Addressable → Checked.Runs (Checked.entries count? limit) c found c'

variable {count? : Option UInt16} {limit : Nat} {c c' : Cursor}

theorem Walk.reads (h : Walk limit c.unread found room' left) (count? : Option UInt16)
    (hle : ∀ count ∈ count?, found.length ≤ count.toNat)
    (hend : (∀ count ∈ count?, found.length < count.toNat) → Tlv.split? room' left = none) :
    Reads count? limit c found (c.advance (foundSize found)) := by
  have hleaving : c.leaving left.length = c.advance (foundSize found) := by
    rw [← length_flatMap_bytes]
    exact Cursor.leaving_eq_advance h.joined
  have hread : read count? limit c = .ok found (c.advance (foundSize found)) := by
    rw [← hleaving]
    cases count? with
    | none => exact Reader.parse_eq (h.splitAfter_eq h.length_le (fun _ => hend (by simp)) [])
    | some count =>
        exact Reader.parse_eq
          (h.splitAfter_eq (hle count rfl) (fun hlt => hend (by simpa using hlt)) [])
  exact ⟨hread, fun hc => (Checked.follows_entries count? limit c hc).runs hread⟩

theorem Walk.unread_advance (h : Walk limit c.unread found room' left) :
    (c.advance (foundSize found)).unread = left := by
  rw [Cursor.unread_advance, h.joined, ← length_flatMap_bytes, List.drop_left]

theorem Walk.remaining_eq (h : Walk limit c.unread found room' left) :
    c.remaining = foundSize found + left.length := by
  rw [← Cursor.length_unread, h.length_eq]

theorem Walk.position_advance (h : Walk limit c.unread found room' left) :
    (c.advance (foundSize found)).position = c.position + foundSize found := by
  have hremaining := h.remaining_eq
  rw [Cursor.position_advance]
  omega

/-- Entries are read as far as a walk goes. -/
theorem exists_reads (count? : Option UInt16) (limit : Nat) (c : Cursor) :
    ∃ found room' left, Walk limit c.unread found room' left ∧
      Reads count? limit c found (c.advance (foundSize found)) ∧
      (∀ count ∈ count?, found.length ≤ count.toNat) ∧
      ((∀ count ∈ count?, found.length < count.toNat) → Tlv.split? room' left = none) := by
  obtain ⟨found, room', left, hwalk, hle, hend⟩ :
      ∃ found room' left, Walk limit c.unread found room' left ∧
        (∀ count ∈ count?, found.length ≤ count.toNat) ∧
        ((∀ count ∈ count?, found.length < count.toNat) → Tlv.split? room' left = none) := by
    cases count? with
    | none =>
        obtain ⟨found, room', left, hwalk, -, hend⟩ := exists_walk c.unread.length limit c.unread
        exact ⟨found, room', left, hwalk, by simp, fun _ => hwalk.split?_eq_none hend⟩
    | some count =>
        obtain ⟨found, room', left, hwalk, hle, hend⟩ := exists_walk count.toNat limit c.unread
        exact ⟨found, room', left, hwalk, by simpa using hle, by simpa using hend⟩
  exact ⟨found, room', left, hwalk, hwalk.reads count? hle hend, hle, hend⟩

/-! ### What is taken -/

/-- How the last entry is cut: it declares more octets than are left behind its header, and gets these.
But for the length that it declares, it is written as it was taken. -/
structure CutOff (limit : Nat) (c : Cursor) (front : List Tlv.Found) (last : Tlv.Found)
    (c' : Cursor) : Prop where
  rest : last.value.length =
    min limit c.remaining - (encodedLength (ofFound front) + Tlv.headerSize)
  declared : last.value.length < last.declared.toNat
  taken : c.unread.take (encodedLength (ofFound (front ++ [last]))) =
    encode (ofFound front) ++ last.bytes
  written : encode (ofFound (front ++ [last])) = encode (ofFound front) ++ last.shortened.bytes
  exhausted : encodedLength (ofFound (front ++ [last])) = limit ∨ c'.remaining = 0

/-- What is taken by entries that are read. -/
structure Takes (count? : Option UInt16) (limit : Nat) (c : Cursor) (found : List Tlv.Found)
    (c' : Cursor) : Prop where
  buffer : c'.buffer = c.buffer
  position : c'.position = c.position + encodedLength (ofFound found)
  within : c'.position ≤ c.position + min limit c.remaining
  /-- Written again the entries are the octets that were taken, or the last entry is cut. -/
  written : encode (ofFound found) = c.unread.take (encodedLength (ofFound found)) ∨
    ∃ front last, found = front ++ [last] ∧ CutOff limit c front last c'
  most : ∀ count ∈ count?, found.length ≤ count.toNat
  /-- No complete header is passed over. -/
  stops : (∀ count ∈ count?, found.length < count.toNat) →
    min (limit - encodedLength (ofFound found)) c'.remaining < Tlv.headerSize

theorem Walk.take_eq (h : Walk limit c.unread found room' left) :
    c.unread.take (foundSize found) = found.flatMap Tlv.Found.bytes := by
  rw [h.joined, ← length_flatMap_bytes, List.take_left]

theorem Walk.cutOff {front : List Tlv.Found} {last : Tlv.Found}
    (h : Walk limit c.unread (front ++ [last]) room' left) (hc' : c'.remaining = left.length)
    (hwhole : ∀ f ∈ front, f.isClamped = false) (hlast : last.isClamped = true)
    (hend : room' = 0 ∨ left = []) : CutOff limit c front last c' := by
  obtain ⟨hfront, hle⟩ := List.forall_mem_append.mp h.le_declared
  have hroom := h.room_eq
  have hremaining := h.remaining_eq
  have hsize : foundSize (front ++ [last]) =
      foundSize front + (Tlv.headerSize + last.value.length) := by
    simp [foundSize]
  have hleft : room' = 0 ∨ left.length = 0 := hend.imp_right List.length_eq_zero_iff.mpr
  refine { rest := ?_, declared := of_decide_eq_true hlast, taken := ?_, written := ?_, exhausted := ?_ }
  · rw [encodedLength_ofFound hfront]
    omega
  · rw [encodedLength_ofFound h.le_declared, h.take_eq, encode_ofFound hfront hwhole,
      List.flatMap_append, List.flatMap_singleton]
  · unfold encode ofFound
    rw [List.map_append, List.flatMap_append, List.map_singleton, List.flatMap_singleton,
      Tlv.Found.encode_toTlv (hle last (List.mem_singleton_self last))]
  · rw [encodedLength_ofFound h.le_declared, hc']
    omega

/-- **A chain takes whole entries from the front of what it may take**, and what it takes can be
written again, but for the length of a last entry that is cut. -/
theorem read_takes (count? : Option UInt16) (limit : Nat) (c : Cursor) :
    ∃ found c', Reads count? limit c found c' ∧ Takes count? limit c found c' := by
  obtain ⟨found, room', left, hwalk, hreads, hle, hend⟩ := exists_reads count? limit c
  have hbehind : (c.advance (foundSize found)).remaining = left.length := by
    rw [← Cursor.length_unread, hwalk.unread_advance]
  have hroom := hwalk.room_eq
  have hremaining := hwalk.remaining_eq
  have hencoded := encodedLength_ofFound hwalk.le_declared
  refine ⟨found, _, hreads,
    { buffer := rfl, position := ?_, within := ?_, written := ?_, most := hle, stops := ?_ }⟩
  · rw [hwalk.position_advance, hencoded]
  · rw [hwalk.position_advance]
    omega
  · rcases hwalk.whole_or_exhausted with hwhole | ⟨front, last, rfl, hwhole, hlast, hleft⟩
    · refine .inl ?_
      rw [hencoded, hwalk.take_eq, encode_ofFound hwalk.le_declared hwhole]
    · exact .inr ⟨front, last, rfl, hwalk.cutOff hbehind hwhole hlast hleft⟩
  · intro hfew
    have hstop := Tlv.split?_eq_none_iff.mp (hend hfew)
    rw [hencoded, hbehind]
    omega

/-! ### What was written -/

/-- Writes entries behind the buffer, one by one. -/
def write (chain : Chain) (c : Cursor) : Cursor := chain.foldl (fun c t => t.write c) c

theorem write_eq (chain : Chain) (c : Cursor) : write chain c = c.append (encode chain) := by
  unfold write
  induction chain generalizing c with
  | nil => simp [encode, Cursor.append]
  | cons t chain ih =>
      rw [List.foldl_cons, ih, encode_cons]
      simp [Tlv.write, Tlv.encode, Cursor.append]

/-- A chain that was written is walked through as it is, whatever stands behind it. -/
theorem walk_encode (chain : Chain) {room : Nat} (rest : Bytes) (h : encodedLength chain ≤ room) :
    Walk room (encode chain ++ rest) (chain.map Tlv.asFound) (room - encodedLength chain) rest := by
  induction chain generalizing room with
  | nil => exact .refl room rest
  | cons t chain ih =>
      rw [encodedLength_cons] at h ⊢
      rw [encode_cons, List.append_assoc, List.map_cons, Nat.sub_add_eq]
      have hchain : encodedLength chain ≤ room - t.size := by omega
      exact .step (Tlv.split?_encode _ (by omega)) (ih hchain)

theorem foundSize_asFound (chain : Chain) :
    foundSize (chain.map Tlv.asFound) = encodedLength chain := by
  induction chain with
  | nil => rfl
  | cons t chain ih =>
      rw [encodedLength_cons, ← ih]
      rfl

/-- Where a chain was written behind the buffer, and more octets behind it. -/
def rewound (chain : Chain) (c : Cursor) (suffix : Bytes) : Cursor :=
  ((write chain c).append suffix).seek c.length

section rewound

variable (chain : Chain) (c : Cursor) (suffix : Bytes)

theorem buffer_write : (write chain c).buffer = c.buffer ++ encode chain := by
  rw [write_eq]
  rfl

theorem length_write : (write chain c).length = c.length + encodedLength chain := by
  unfold Cursor.length
  rw [buffer_write, List.length_append, length_encode]

theorem unread_rewound : (rewound chain c suffix).unread = encode chain ++ suffix := by
  unfold rewound
  rw [Cursor.unread_seek, Cursor.buffer_append, buffer_write, List.append_assoc]
  exact List.drop_left

theorem position_rewound : (rewound chain c suffix).position = c.length := by
  refine Nat.min_eq_left ?_
  rw [Cursor.buffer_append, buffer_write, List.length_append, List.length_append, Nat.add_assoc]
  exact Nat.le_add_right _ _

/-- **A chain that was written is read back**, with each value up to what a length can announce and
with nothing of what stands behind it. -/
theorem read_write :
    ((write chain c).buffer = c.buffer ++ encode chain ∧ (write chain c).position = c.position ∧
      (write chain c).length = c.length + encodedLength chain) ∧
    ∃ found c', ofFound found = chain.map Tlv.cut ∧
      c'.position = (write chain c).length ∧ c'.unread = suffix ∧
      Reads none (encodedLength chain) (rewound chain c suffix) found c' ∧
      (chain.length ≤ 65535 → ∀ limit, encodedLength chain ≤ limit →
        Reads (some (UInt16.ofNat chain.length)) limit (rewound chain c suffix) found c') := by
  have hwalk : ∀ room, encodedLength chain ≤ room → Walk room (rewound chain c suffix).unread
      (chain.map Tlv.asFound) (room - encodedLength chain) suffix := by
    rw [unread_rewound]
    exact fun room => walk_encode chain suffix
  have hwhole := hwalk _ (Nat.le_refl _)
  have hunread := hwhole.unread_advance
  rw [foundSize_asFound] at hunread
  refine ⟨⟨buffer_write chain c, by rw [write_eq]; rfl, length_write chain c⟩,
    chain.map Tlv.asFound, (rewound chain c suffix).advance (encodedLength chain),
    ofFound_asFound chain, ?_, hunread, ?_, ?_⟩
  · have hposition := hwhole.position_advance
    rwa [foundSize_asFound, position_rewound, ← length_write] at hposition
  · have hstop : Tlv.split? (encodedLength chain - encodedLength chain) suffix = none := by
      rw [Tlv.split?_eq_none_iff, Nat.sub_self, Nat.zero_min]
      exact Nat.succ_pos 3
    have hreads := hwhole.reads none (fun _ h => nomatch h) fun _ => hstop
    rwa [foundSize_asFound] at hreads
  · intro hcount limit hlimit
    have hnumber : (chain.map Tlv.asFound).length = (UInt16.ofNat chain.length).toNat := by
      rw [List.length_map, Bytes.word16_toNat_ofNat (Nat.lt_succ_of_le hcount)]
    have hreads := (hwalk limit hlimit).reads (some (UInt16.ofNat chain.length))
      (fun _ h => Option.some.inj h ▸ Nat.le_of_eq hnumber)
      fun h => absurd (h _ rfl) (Nat.not_lt.mpr (Nat.le_of_eq hnumber.symm))
    rwa [foundSize_asFound] at hreads

end rewound

/-- A chain behind one octet, in front of octets that could be another entry. -/
theorem read_write_repeated :
    ∃ found c', ofFound found = [⟨1, []⟩, ⟨1, [7]⟩] ∧ c'.unread = [0, 1, 0, 1, 5] ∧
      Reads (some 2) 100 (rewound [⟨1, []⟩, ⟨1, [7]⟩] (.ofBytes [9]) [0, 1, 0, 1, 5]) found c' := by
  obtain ⟨-, found, c', hfound, -, hunread, -, hcounted⟩ :=
    read_write [⟨1, []⟩, ⟨1, [7]⟩] (.ofBytes [9]) [0, 1, 0, 1, 5]
  exact ⟨found, c', hfound, hunread, hcounted (by decide) 100 (by decide)⟩

end Chain
end Whereabouts
