import Mathlib.Algebra.Ring.Nat
import Mathlib.Data.List.Basic
import Whereabouts.Wire.Tlv

/-! # Chains on the wire and back

The octets of a chain, split again, are its entries with each value cut to what a length can
announce (`splitCounted_encode`, `split_encode`).  What stands behind a counted chain is left
for whoever reads on.

Whatever octets are split, those of an entry and those behind it are all of them
(`Tlv.frontOf_split?`), and so are those of all entries and those that are left
(`foundSize_splitAfter`). -/

namespace Whereabouts

theorem Bytes.word16_toNat_ofNat {n : Nat} (h : n < 65536) : (UInt16.ofNat n).toNat = n := by
  rw [UInt16.toNat_ofNat']
  omega

theorem Bytes.toNat_word16 (a b : UInt8) : (word16 a b).toNat = a.toNat * 256 + b.toNat := by
  have ha := a.toNat_lt
  have hb := b.toNat_lt
  exact word16_toNat_ofNat (by omega)

theorem Bytes.ofWord16_word16 (a b : UInt8) : ofWord16 (word16 a b) = [a, b] := by
  have hb := b.toNat_lt
  have hhigh : (a.toNat * 256 + b.toNat) / 256 = a.toNat := by omega
  have hlow : (a.toNat * 256 + b.toNat) % 256 = b.toNat := by omega
  unfold ofWord16
  rw [toNat_word16, hhigh, hlow, UInt8.ofNat_toNat, UInt8.ofNat_toNat]

namespace Tlv

/-- The entry as it comes back from the wire. -/
def asFound (t : Tlv) : Found := ⟨t.type, UInt16.ofNat t.written.length, t.written⟩

/-- The entry with its value as it is written. -/
def cut (t : Tlv) : Tlv := ⟨t.type, t.written⟩

theorem length_written_le (t : Tlv) : t.written.length ≤ valueLimit := List.length_take_le _ _

theorem cut_of_le {t : Tlv} (h : t.value.length ≤ valueLimit) : t.cut = t := by
  unfold cut written
  rw [List.take_of_length_le h]

theorem split?_encode {t : Tlv} {room : Nat} (rest : Bytes) (h : t.size ≤ room) :
    split? room (t.encode ++ rest) = some (t.asFound, rest) := by
  have hroom : headerSize + t.written.length ≤ room := h
  have hlen := t.length_written_le
  have e : (Bytes.word16 (UInt8.ofNat ((UInt16.ofNat t.written.length).toNat / 256))
      (UInt8.ofNat ((UInt16.ofNat t.written.length).toNat % 256))).toNat = t.written.length := by
    rw [Bytes.word16_ofWord16, Bytes.word16_toNat_ofNat (Nat.lt_succ_of_le hlen)]
  have hkept : min t.written.length (room - headerSize) = t.written.length := by omega
  simp only [encode, Bytes.ofWord16, List.cons_append, List.nil_append, split?,
    if_neg (show ¬ room < headerSize by omega), e, hkept, List.take_left, List.drop_left]
  rw [Bytes.word16_ofWord16, Bytes.word16_ofWord16]
  rfl

/-! ### The front of some octets -/

/-- The entry as it stands on the wire. -/
def Found.bytes (f : Found) : Bytes :=
  Bytes.ofWord16 f.type ++ Bytes.ofWord16 f.declared ++ f.value

@[simp] theorem Found.length_bytes (f : Found) : f.bytes.length = headerSize + f.value.length := by
  simp [Found.bytes, headerSize]
  omega

/-- What is known of an entry at the front of some octets, and of those behind it. -/
structure FrontOf (room : Nat) (bytes : Bytes) (f : Found) (rest : Bytes) : Prop where
  joined : bytes = f.bytes ++ rest
  within : headerSize + f.value.length ≤ room
  le_declared : f.value.length ≤ f.declared.toNat
  /-- A value that is cut goes up to the end of the room or of the octets. -/
  exhausted : f.isClamped = true → headerSize + f.value.length = room ∨ rest = []

variable {room : Nat} {bytes rest : Bytes} {f : Found}

/-- An entry that fits behind its header is the first that is split off. -/
theorem split?_header (h : headerSize ≤ room) (a b m n : UInt8) (octets : Bytes) :
    split? room (a :: b :: m :: n :: octets) =
      some (⟨Bytes.word16 a b, Bytes.word16 m n,
          octets.take (min (Bytes.word16 m n).toNat (room - headerSize))⟩,
        octets.drop (min (Bytes.word16 m n).toNat (room - headerSize))) := by
  unfold split?
  exact if_neg (Nat.not_lt.mpr h)

theorem exists_header (h : headerSize ≤ bytes.length) :
    ∃ a b m n octets, bytes = a :: b :: m :: n :: octets := by
  match bytes, h with
  | a :: b :: m :: n :: octets, _ => exact ⟨a, b, m, n, octets, rfl⟩

theorem split?_eq_none_iff : split? room bytes = none ↔ min room bytes.length < headerSize := by
  constructor
  · intro h
    by_contra hfits
    have hheader : headerSize ≤ bytes.length := by omega
    obtain ⟨a, b, m, n, octets, rfl⟩ := exists_header hheader
    rw [split?_header (by omega)] at h
    cases h
  · intro h
    match bytes with
    | a :: b :: m :: n :: octets =>
        have hroom : room < headerSize := by
          simp only [List.length_cons, headerSize] at h ⊢
          omega
        unfold split?
        exact if_pos hroom
    | [] | [_] | [_, _] | [_, _, _] => rfl

/-- An entry that is split off stands behind its header, and gets what it declares as far as there are
room and octets. -/
theorem split?_inv (h : split? room bytes = some (f, rest)) :
    headerSize ≤ room ∧ ∃ a b m n octets, bytes = a :: b :: m :: n :: octets ∧
      f = ⟨Bytes.word16 a b, Bytes.word16 m n,
        octets.take (min (Bytes.word16 m n).toNat (room - headerSize))⟩ ∧
      rest = octets.drop (min (Bytes.word16 m n).toNat (room - headerSize)) := by
  have hfits : ¬ min room bytes.length < headerSize := by
    rw [← split?_eq_none_iff, h]
    exact Option.some_ne_none _
  have hroom : headerSize ≤ room := by omega
  have hheader : headerSize ≤ bytes.length := by omega
  obtain ⟨a, b, m, n, octets, rfl⟩ := exists_header hheader
  rw [split?_header hroom] at h
  obtain ⟨rfl, rfl⟩ := Prod.mk.inj (Option.some.inj h)
  exact ⟨hroom, a, b, m, n, octets, rfl, rfl, rfl⟩

theorem frontOf_split? (h : split? room bytes = some (f, rest)) : FrontOf room bytes f rest := by
  obtain ⟨hroom, a, b, m, n, octets, rfl, rfl, rfl⟩ := split?_inv h
  refine { joined := ?_, within := ?_, le_declared := ?_, exhausted := ?_ }
  · simp only [Found.bytes, Bytes.ofWord16_word16, List.cons_append, List.nil_append,
      List.take_append_drop]
  · rw [List.length_take]
    omega
  · exact Nat.le_trans (List.length_take_le _ _) (Nat.min_le_left _ _)
  · intro hclamped
    simp only [Found.isClamped, List.length_take, decide_eq_true_eq, List.drop_eq_nil_iff]
      at hclamped ⊢
    omega

theorem length_of_split? (h : split? room bytes = some (f, rest)) :
    headerSize + f.value.length + rest.length = bytes.length := by
  rw [(frontOf_split? h).joined, List.length_append, Found.length_bytes]

theorem suffix_of_split? (h : split? room bytes = some (f, rest)) : rest <:+ bytes :=
  ⟨f.bytes, (frontOf_split? h).joined.symm⟩

theorem length_value_of_split? (h : split? room bytes = some (f, rest)) :
    f.value.length ≤ 65535 := by
  have hdeclared := f.declared.toNat_lt
  have hle := (frontOf_split? h).le_declared
  omega

end Tlv

namespace Chain

theorem encode_cons (t : Tlv) (c : Chain) : encode (t :: c) = t.encode ++ encode c := rfl

theorem encodedLength_cons (t : Tlv) (c : Chain) :
    encodedLength (t :: c) = t.size + encodedLength c := rfl

theorem splitAfter_encode (c : Chain) {count room : Nat} (done : List Tlv.Found) (rest : Bytes)
    (hc : c.length ≤ count) (hr : encodedLength c ≤ room) :
    splitAfter count room done (encode c ++ rest) =
      splitAfter (count - c.length) (room - encodedLength c)
        ((c.map Tlv.asFound).reverse ++ done) rest := by
  induction c generalizing count room done with
  | nil => rfl
  | cons t c ih =>
      obtain ⟨count, rfl⟩ : ∃ k, count = k + 1 := ⟨count - 1, by simp at hc; omega⟩
      rw [encodedLength_cons] at hr
      have hsub : room - (Tlv.headerSize + t.asFound.value.length) = room - t.size := rfl
      rw [encode_cons, List.append_assoc, splitAfter, Tlv.split?_encode _ (by omega)]
      simp only [hsub]
      rw [ih _ (Nat.le_of_succ_le_succ hc) (by omega), encodedLength_cons, List.length_cons,
        Nat.add_sub_add_right, Nat.sub_add_eq, List.map_cons, List.reverse_cons, List.append_assoc]
      rfl

theorem splitAfter_nil (count room : Nat) (done : List Tlv.Found) :
    splitAfter count room done [] = (done.reverse, []) := by
  cases count <;> rfl

/-- A chain behind its count is split exactly, whatever stands behind it. -/
theorem splitCounted_encode (c : Chain) {room : Nat} (rest : Bytes) (hr : encodedLength c ≤ room) :
    splitCounted c.length room (encode c ++ rest) = (c.map Tlv.asFound, rest) := by
  unfold splitCounted
  rw [splitAfter_encode c [] rest (Nat.le_refl _) hr, Nat.sub_self, splitAfter,
    List.append_nil, List.reverse_reverse]

theorem length_le_encodedLength (c : Chain) : c.length ≤ encodedLength c := by
  induction c with
  | nil => exact Nat.le_refl _
  | cons t c ih =>
      rw [encodedLength_cons, List.length_cons, Tlv.size, Tlv.headerSize]
      omega

/-- A chain that fills a string is split exactly. -/
theorem split_encode (c : Chain) :
    split (encode c).length (encode c) = (c.map Tlv.asFound, []) := by
  have hc : c.length ≤ (encode c).length :=
    Nat.le_trans (length_le_encodedLength c) (Nat.le_of_eq (length_encode c).symm)
  have h := splitAfter_encode c [] [] hc (Nat.le_of_eq (length_encode c).symm)
  rw [List.append_nil] at h
  unfold split splitCounted
  rw [h, splitAfter_nil, List.append_nil, List.reverse_reverse]

@[simp] theorem ofFound_asFound (c : Chain) : ofFound (c.map Tlv.asFound) = c.map Tlv.cut := by
  unfold ofFound
  rw [List.map_map]
  rfl

/-! ### How much is split off -/

/-- The octets that entries took on the wire. -/
def foundSize (found : List Tlv.Found) : Nat :=
  (found.map fun f => Tlv.headerSize + f.value.length).sum

/-- What is split off and what is left are all octets. -/
theorem foundSize_splitAfter (count room : Nat) (done : List Tlv.Found) (bytes : Bytes) :
    foundSize (splitAfter count room done bytes).1 + (splitAfter count room done bytes).2.length =
      foundSize done + bytes.length := by
  induction count generalizing room done bytes with
  | zero => simp [splitAfter, foundSize]
  | succ count ih =>
      unfold splitAfter
      split
      · simp [foundSize]
      · rename_i found rest hsplit
        have hlength := Tlv.length_of_split? hsplit
        have hcons : foundSize (found :: done) =
            Tlv.headerSize + found.value.length + foundSize done := rfl
        rw [ih, hcons]
        omega

theorem suffix_splitAfter (count room : Nat) (done : List Tlv.Found) (bytes : Bytes) :
    (splitAfter count room done bytes).2 <:+ bytes := by
  induction count generalizing room done bytes with
  | zero => exact List.suffix_refl bytes
  | succ count ih =>
      unfold splitAfter
      split
      · exact List.suffix_refl bytes
      · rename_i found rest hsplit
        exact (ih _ _ rest).trans (Tlv.suffix_of_split? hsplit)

theorem headerSize_mul_length_le (found : List Tlv.Found) :
    Tlv.headerSize * found.length ≤ foundSize found := by
  induction found with
  | nil => exact Nat.le_refl _
  | cons f found ih =>
      have hcons : foundSize (f :: found) = Tlv.headerSize + f.value.length + foundSize found := rfl
      rw [hcons, List.length_cons, Nat.mul_succ]
      omega

theorem length_le_foundSize (found : List Tlv.Found) : found.length ≤ foundSize found := by
  have hheaders := headerSize_mul_length_le found
  unfold Tlv.headerSize at hheaders
  omega

/-- The entries of one type took no more octets than all. -/
theorem sum_ofType_le (found : List Tlv.Found) (type : UInt16) :
    ((ofType (ofFound found) type).map fun t => Tlv.headerSize + t.value.length).sum ≤
      foundSize found := by
  induction found with
  | nil => exact Nat.le_refl _
  | cons f found ih =>
      have hcons : foundSize (f :: found) = Tlv.headerSize + f.value.length + foundSize found := rfl
      have hvalue : f.toTlv.value = f.value := rfl
      unfold ofType ofFound at *
      rw [List.map_cons, List.filter_cons, hcons]
      split_ifs
      · rw [List.map_cons, List.sum_cons, hvalue]
        omega
      · omega

/-- A count beyond the number of octets does not stop the splitting. -/
theorem splitAfter_of_length_le {m n room : Nat} {done : List Tlv.Found} {bytes : Bytes}
    (hm : bytes.length ≤ m) (hn : bytes.length ≤ n) :
    splitAfter m room done bytes = splitAfter n room done bytes := by
  induction m generalizing n room done bytes with
  | zero =>
      obtain rfl := List.length_eq_zero_iff.mp (Nat.le_zero.mp hm)
      rw [splitAfter_nil, splitAfter_nil]
  | succ m ih =>
      cases n with
      | zero =>
          obtain rfl := List.length_eq_zero_iff.mp (Nat.le_zero.mp hn)
          rw [splitAfter_nil, splitAfter_nil]
      | succ n =>
          unfold splitAfter
          split
          · rfl
          · rename_i found rest hsplit
            have hlength := Tlv.length_of_split? hsplit
            unfold Tlv.headerSize at hlength
            exact ih (by omega) (by omega)

end Chain
end Whereabouts
