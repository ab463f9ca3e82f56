import Whereabouts.Proofs.Accumulation
import Whereabouts.Proofs.Counts
import Whereabouts.Proofs.Extras
import Whereabouts.Proofs.Keyed

/-! # What presence extras say

Any octets fall into entries behind headers of four octets, and a tail too short for a header
(`Splits`): nothing else is left out, and there is only one way to split.  A text in the body of an
entry is found by its places (`Text.ofBody_eq`).

Which entry a field of the extras comes from is said by `Extras.SaidBy`.  All entries of a run fill
the extras this way (`Extras.saidBy_foldl`), and no two extras are filled alike
(`Extras.SaidBy.unique`). -/

namespace Whereabouts

/-! ### Numbers at places -/

namespace Bytes

/-- The 16-bit number at a place.  Octets that are not there count as zero. -/
def numberAt (bytes : Bytes) (place : Nat) : Nat :=
  (bytes.getD place 0).toNat * 256 + (bytes.getD (place + 1) 0).toNat

theorem numberAt_drop (bytes : Bytes) (m n : Nat) :
    numberAt (bytes.drop m) n = bytes.numberAt (m + n) := by
  unfold numberAt
  simp only [List.getD_eq_getElem?_getD, List.getElem?_drop, Nat.add_assoc]

end Bytes

/-! ### How octets fall into entries -/

namespace ExtraEntry

/-- How octets fall into entries, and what is left behind these. -/
inductive Splits : Bytes → List ExtraEntry → Bytes → Prop
  | tail {left : Bytes} (short : left.length < 4) : Splits left [] left
  | entry {a b number declared : UInt8} {rest left : Bytes} {entries : List ExtraEntry}
      (behind : Splits (rest.drop declared.toNat) entries left) :
      Splits (a :: b :: number :: declared :: rest)
        (⟨Bytes.word16 a b, number, declared, rest.take declared.toNat⟩ :: entries) left

theorem length_of_split?_eq_none {bytes : Bytes} (h : split? bytes = none) : bytes.length < 4 := by
  match bytes, h with
  | [], _ | [_], _ | [_, _], _ | [_, _, _], _ => simp

theorem splits_splitAfter {count : Nat} {bytes : Bytes} (h : bytes.length ≤ count) :
    ∃ left, Splits bytes (splitAfter count [] bytes) left := by
  induction count generalizing bytes with
  | zero =>
      obtain rfl := List.length_eq_zero_iff.mp (Nat.le_zero.mp h)
      exact ⟨[], .tail (by decide)⟩
  | succ count ih =>
      unfold splitAfter
      split
      · rename_i hnone
        exact ⟨bytes, .tail (length_of_split?_eq_none hnone)⟩
      · rename_i entry rest hsplit
        have hlength := length_of_split? hsplit
        obtain ⟨left, hrest⟩ := @ih rest (by omega)
        rw [splitAfter_eq]
        refine ⟨left, ?_⟩
        unfold split? at hsplit
        split at hsplit
        · obtain ⟨rfl, rfl⟩ := Prod.mk.inj (Option.some.inj hsplit)
          exact .entry hrest
        · cases hsplit

theorem splits_splitAll (bytes : Bytes) : ∃ left, Splits bytes (splitAll bytes) left :=
  splits_splitAfter (Nat.le_refl _)

variable {bytes left left' : Bytes} {entries entries' : List ExtraEntry}

theorem Splits.length_left (h : Splits bytes entries left) : left.length < 4 := by
  induction h with
  | tail short => exact short
  | entry _ ih => exact ih

/-- Every octet belongs to an entry or is left. -/
theorem Splits.joined (h : Splits bytes entries left) :
    bytes = entries.flatMap ExtraEntry.bytes ++ left := by
  induction h with
  | tail _ => rfl
  | @entry a b number declared rest left entries _ ih =>
      rw [List.flatMap_cons, List.append_assoc, ← ih]
      simp only [ExtraEntry.bytes, Bytes.ofWord16_word16, List.cons_append, List.nil_append, List.take_append_drop]

theorem Splits.unique (h : Splits bytes entries left) (h' : Splits bytes entries' left') :
    entries = entries' ∧ left = left' := by
  induction h generalizing entries' with
  | tail short =>
      cases h' with
      | tail _ => exact ⟨rfl, rfl⟩
      | entry _ =>
          simp only [List.length_cons] at short
          omega
  | entry _ ih =>
      cases h' with
      | tail short =>
          simp only [List.length_cons] at short
          omega
      | entry behind =>
          obtain ⟨rfl, rfl⟩ := ih behind
          exact ⟨rfl, rfl⟩

/-- How each of several values falls into entries. -/
def SplitsAll : List Bytes → List (List ExtraEntry × Bytes) → Prop :=
  List.Forall₂ fun value part => Splits value part.1 part.2

theorem exists_splitsAll (values : List Bytes) : ∃ parts, SplitsAll values parts := by
  induction values with
  | nil => exact ⟨[], .nil⟩
  | cons value values ih =>
      obtain ⟨parts, hparts⟩ := ih
      obtain ⟨left, hsplits⟩ := splits_splitAll value
      exact ⟨(splitAll value, left) :: parts, .cons hsplits hparts⟩

theorem SplitsAll.flatMap_fst {values : List Bytes} {parts : List (List ExtraEntry × Bytes)}
    (h : SplitsAll values parts) : parts.flatMap Prod.fst = values.flatMap splitAll := by
  induction h with
  | nil => rfl
  | cons hsplits _ ih =>
      obtain ⟨left, hsplits'⟩ := splits_splitAll _
      rw [List.flatMap_cons, List.flatMap_cons, ih, (hsplits.unique hsplits').1]

end ExtraEntry

/-! ### Texts by their places -/

namespace Text

/-- The text in the body of an entry.  Behind its length stands as much of the text as there is, and
behind that, if the flag is one and two more numbers fit, the name of its encoding. -/
def atPlaces (body : Bytes) : Text :=
  if body.length < 4 then ⟨[], none⟩
  else
    let bytes := (body.drop 2).take (body.numberAt 0)
    let flag := 2 + bytes.length
    ⟨bytes,
      if body.numberAt flag = 1 ∧ flag + 6 ≤ body.length then
        some (Utf8.decodeLossy ((body.drop (flag + 6)).take (body.numberAt (flag + 4))))
      else none⟩

theorem encodingOfBody_eq (tail : Bytes) :
    encodingOfBody tail =
      if tail.numberAt 0 = 1 ∧ 6 ≤ tail.length then
        some (Utf8.decodeLossy ((tail.drop 6).take (tail.numberAt 4)))
      else none := by
  match tail with
  | f :: g :: x :: y :: m :: n :: rest =>
      have hflag : Bytes.word16 f g = hasEncoding ↔
          Bytes.numberAt (f :: g :: x :: y :: m :: n :: rest) 0 = 1 := by
        rw [← UInt16.toNat_inj, Bytes.toNat_word16]
        rfl
      have hlength : 6 ≤ (f :: g :: x :: y :: m :: n :: rest).length := by
        simp only [List.length_cons]
        omega
      have hname : Bytes.numberAt (f :: g :: x :: y :: m :: n :: rest) 4 =
          (Bytes.word16 m n).toNat :=
        (Bytes.toNat_word16 m n).symm
      simp only [encodingOfBody, hname]
      exact if_congr (hflag.trans (and_iff_left hlength).symm) rfl rfl
  | [] | [_] | [_, _] | [_, _, _] | [_, _, _, _] | [_, _, _, _, _] => simp [encodingOfBody]

/-- A text is read from its places. -/
theorem ofBody_eq (body : Bytes) : ofBody body = atPlaces body := by
  unfold ofBody atPlaces
  split_ifs with hshort
  · rfl
  · match body, hshort with
    | a :: b :: rest, _ =>
        have hnumber : Bytes.numberAt (a :: b :: rest) 0 = (Bytes.word16 a b).toNat :=
          (Bytes.toNat_word16 a b).symm
        have hbehind : rest.drop (Bytes.word16 a b).toNat =
            (a :: b :: rest).drop (2 + (rest.take (Bytes.word16 a b).toNat).length) := by
          -- A length beyond the body leaves the same tail as one that ends with it: none.
          rw [← List.drop_drop, List.length_take]
          show _ = rest.drop _
          rcases Nat.le_total (Bytes.word16 a b).toNat rest.length with h | h
          · rw [Nat.min_eq_left h]
          · rw [Nat.min_eq_right h, List.drop_of_length_le h, List.drop_of_length_le (Nat.le_refl _)]
        have hfront : (a :: b :: rest).drop 2 = rest := rfl
        simp only [hfront, hnumber, hbehind, encodingOfBody_eq, Bytes.numberAt_drop,
          List.length_drop, List.drop_drop, Nat.add_zero, Text.mk.injEq, true_and]
        refine if_congr (and_congr_right fun _ => ?_) rfl rfl
        omega
    | [], h | [_], h => exact absurd (by simp) h

end Text

/-! ### Which entry a field comes from -/

namespace ExtraEntry

/-- The checksum in an entry: the number of its kind, zero or one, and a digest that is not empty. -/
def checksum? (e : ExtraEntry) : Option (UInt8 × Bytes) :=
  if e.type = ExtraType.iconChecksum.code ∧ (e.number = 0 ∨ e.number = 1) ∧ e.body ≠ [] then
    some (e.number, e.body)
  else none

/-- The text in an entry of a type. -/
def text? (type : ExtraType) (e : ExtraEntry) : Option Text :=
  if e.type = type.code then some (Text.atPlaces e.body) else none

/-- The icon of a token that is not empty and that the catalogue knows. -/
def icon? (cat : Catalogue) (e : ExtraEntry) : Option Icon :=
  if e.type = ExtraType.mood.code ∧ Utf8.decodeLossy e.body ≠ "" then
    cat.moodIcon? (Utf8.decodeLossy e.body)
  else none

/-- Whether an entry is of none of the known types. -/
def isUnknown (e : ExtraEntry) : Bool := e.type ∉ ExtraType.all.map ExtraType.code

theorem Splits.length_body {bytes left : Bytes} {entries : List ExtraEntry}
    (h : Splits bytes entries left) : ∀ e ∈ entries, e.body.length ≤ 255 := by
  induction h with
  | tail _ => exact fun e he => (List.not_mem_nil he).elim
  | @entry a b number declared rest left entries _ ih =>
      have hdeclared : declared.toNat < 256 := declared.toNat_lt
      refine List.forall_mem_cons.mpr ⟨?_, ih⟩
      exact (List.length_take_le _ _).trans (Nat.le_of_lt_succ hdeclared)

end ExtraEntry

/-- The number of its kind and the digest of a checksum. -/
def IconChecksum.parts (s : IconChecksum) : UInt8 × Bytes := (s.kind.number, s.digest)

/-- Whether extras are what entries say: each field comes from the last entry that says it. -/
structure Extras.SaidBy (cat : Catalogue) (entries : List ExtraEntry) (x : Extras) : Prop where
  iconChecksum : x.iconChecksum.map IconChecksum.parts = latest? ExtraEntry.checksum? entries
  away : x.away = latest? (ExtraEntry.text? .statusText) entries
  externalLink : x.externalLink = latest? (ExtraEntry.text? .externalLink) entries
  mood : x.mood = latest? (ExtraEntry.icon? cat) entries

theorem IconChecksum.parts_inj {s t : IconChecksum} (h : s.parts = t.parts) : s = t := by
  obtain ⟨kind, digest, hdigest⟩ := s
  obtain ⟨kind', digest', hdigest'⟩ := t
  obtain ⟨hkind, rfl⟩ := Prod.mk.inj h
  cases kind <;> cases kind' <;> first | rfl | cases hkind

theorem Extras.SaidBy.unique {cat : Catalogue} {entries : List ExtraEntry} {x y : Extras}
    (hx : x.SaidBy cat entries) (hy : y.SaidBy cat entries) : x = y := by
  have hsum : x.iconChecksum = y.iconChecksum :=
    Option.map_injective (fun _ _ h => IconChecksum.parts_inj h)
      (hx.iconChecksum.trans hy.iconChecksum.symm)
  obtain ⟨sum, away, link, mood⟩ := x
  obtain ⟨sum', away', link', mood'⟩ := y
  obtain rfl := hsum
  obtain rfl := hx.away.trans hy.away.symm
  obtain rfl := hx.externalLink.trans hy.externalLink.symm
  obtain rfl := hx.mood.trans hy.mood.symm
  rfl

namespace ExtraType

theorem code_inj {a b : ExtraType} : a.code = b.code ↔ a = b := Keyed.tell_inj ofCode?_code

theorem eq_code_of_ofCode? {n : UInt16} {type : ExtraType} (h : ofCode? n = some type) :
    n = type.code :=
  (Keyed.tell_of_find? h).symm

theorem ne_code_of_ofCode? {n : UInt16} (h : ofCode? n = none) (type : ExtraType) :
    n ≠ type.code :=
  Keyed.ne_tell_of_find?_eq_none ofCode?_code h type

end ExtraType

/-- A checksum is read if its kind is known and it has a digest. -/
theorem IconChecksum.map_parts (number : UInt8) {body : Bytes} (h : body.length ≤ 255) :
    ((ChecksumKind.ofNumber? number).bind fun kind => ofDigest? kind body).map parts =
      if (number = 0 ∨ number = 1) ∧ body ≠ [] then some (number, body) else none := by
  have hdigest : (0 < body.length ∧ body.length ≤ 255) ↔ body ≠ [] := by
    rw [and_iff_left h, List.length_pos_iff]
  unfold ChecksumKind.ofNumber? ofDigest?
  by_cases hbody : body = []
  · by_cases hzero : number = 0 <;> by_cases hone : number = 1 <;> simp [hzero, hone, hbody]
  · by_cases hzero : number = 0
    · simp [hzero, hdigest, hbody, parts, ChecksumKind.number]
    · by_cases hone : number = 1 <;> simp [hzero, hone, hdigest, hbody, parts, ChecksumKind.number]

namespace Extra

variable (cat : Catalogue) {e : ExtraEntry} (x : Extras)

/-- One entry fills the field that it is for, if it says anything, and leaves the others. -/
theorem apply_ofEntry (h : e.body.length ≤ 255) :
    (apply x (ofEntry cat e)).iconChecksum.map IconChecksum.parts =
        e.checksum?.or (x.iconChecksum.map IconChecksum.parts) ∧
      (apply x (ofEntry cat e)).away = (e.text? .statusText).or x.away ∧
      (apply x (ofEntry cat e)).externalLink = (e.text? .externalLink).or x.externalLink ∧
      (apply x (ofEntry cat e)).mood = (e.icon? cat).or x.mood := by
  unfold ofEntry ExtraEntry.checksum? ExtraEntry.text? ExtraEntry.icon?
  cases htype : ExtraType.ofCode? e.type with
  | none => simp [apply, ExtraType.ne_code_of_ofCode? htype]
  | some known =>
      rw [ExtraType.eq_code_of_ofCode? htype]
      cases known with
      | statusText | externalLink => simp [apply, ExtraType.code_inj, Text.ofBody_eq]
      | iconChecksum =>
          have hparts := IconChecksum.map_parts e.number h
          cases hsum : (ChecksumKind.ofNumber? e.number).bind
              fun kind => IconChecksum.ofDigest? kind e.body <;>
            rw [hsum] at hparts <;> simp [apply, ExtraType.code_inj, ← hparts]
      | mood =>
          by_cases htoken : Utf8.decodeLossy e.body = ""
          · simp [apply, ExtraType.code_inj, htoken]
          · cases hicon : cat.moodIcon? (Utf8.decodeLossy e.body) <;>
              simp [apply, ExtraType.code_inj, htoken, hicon]

theorem length_unknownTypes_ofEntry (e : ExtraEntry) :
    (ofEntry cat e).unknownTypes.length = if e.isUnknown then 1 else 0 := by
  have hknown : e.isUnknown = (ExtraType.ofCode? e.type).isNone := Keyed.isNone_find?.symm
  rw [hknown]
  unfold ofEntry
  cases ExtraType.ofCode? e.type with
  | none => rfl
  | some known =>
      rw [Option.isNone_some, if_neg Bool.false_ne_true]
      cases known with
      | statusText | externalLink => rfl
      | iconChecksum =>
          dsimp only
          split <;> rfl
      | mood =>
          dsimp only
          split_ifs
          · rfl
          · split <;> rfl

theorem length_flatMap_unknownTypes (entries : List ExtraEntry) :
    ((entries.map (ofEntry cat)).flatMap unknownTypes).length =
      entries.countP ExtraEntry.isUnknown := by
  induction entries with
  | nil => rfl
  | cons e entries ih =>
      rw [List.map_cons, List.flatMap_cons, List.length_append, length_unknownTypes_ofEntry, ih,
        List.countP_cons, Nat.add_comm]

end Extra

/-- **The last entry that says a field fills it**, whatever stands around it. -/
theorem Extras.saidBy_foldl (cat : Catalogue) {entries : List ExtraEntry}
    (h : ∀ e ∈ entries, e.body.length ≤ 255) :
    ((entries.map (Extra.ofEntry cat)).foldl Extra.apply {}).SaidBy cat entries := by
  have hsum := field_foldl_latest ({} : Extras) (fun x => x.iconChecksum.map IconChecksum.parts)
    fun e he x => (Extra.apply_ofEntry cat x (h e he)).1
  have haway := field_foldl_latest {} Extras.away
    fun e he x => (Extra.apply_ofEntry cat x (h e he)).2.1
  have hlink := field_foldl_latest {} Extras.externalLink
    fun e he x => (Extra.apply_ofEntry cat x (h e he)).2.2.1
  have hmood := field_foldl_latest {} Extras.mood
    fun e he x => (Extra.apply_ofEntry cat x (h e he)).2.2.2
  rw [List.foldl_map]
  exact
    { iconChecksum := hsum.trans Option.or_none
      away := haway.trans Option.or_none
      externalLink := hlink.trans Option.or_none
      mood := hmood.trans Option.or_none }

end Whereabouts
