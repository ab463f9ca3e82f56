import Whereabouts.Proofs.JsonText
import Whereabouts.Proofs.Keyed
import Whereabouts.Record.Json

/-! # Reading records back from JSON

A reader of records that looks up each field by its name in an object, `Record.ofJson?`.  It reads
flags from the names of their bits, an address from its four numbers and octets from lists of
numbers.  `Record.ofText?_pretty` says that it gets every record back from the text that is shown
for it, so that text tells all fields. -/

namespace Whereabouts

theorem mapM_map_eq_some {α β γ : Type} {f : β → Option γ} {g : α → β} {say : α → γ} {l : List α}
    (h : ∀ a ∈ l, f (g a) = some (say a)) : (l.map g).mapM f = some (l.map say) := by
  induction l with
  | nil => rfl
  | cons a l ih =>
      obtain ⟨ha, hrest⟩ := List.forall_mem_cons.mp h
      rw [List.map_cons, List.mapM_cons, ha, ih hrest]
      rfl

/-! ### Named bits -/

namespace BitNames

/-- The bits of a word: the one that it names, or those of a hexadecimal number. -/
def ofWord? (names : BitNames) (word : List Char) : Option Nat :=
  match names.find? fun entry => entry.2.toList == word with
  | some entry => some (1 <<< entry.1)
  | none =>
      match word with
      | '0' :: 'x' :: digits => Hex.toNat? digits
      | _ => none

/-- The words between bars. -/
def wordsOf (text : String) : List (List Char) :=
  ((text.toList.filter fun c => c != ' ').splitOn '|').filter fun word => !word.isEmpty

/-- The bits of a text. -/
def ofText? (names : BitNames) (text : String) : Option Nat :=
  ((wordsOf text).mapM names.ofWord?).map List.sum

/-- Whether a word stays in one piece between bars. -/
def IsPlain (word : List Char) : Prop := word ≠ [] ∧ ' ' ∉ word ∧ '|' ∉ word

instance (word : List Char) : Decidable (IsPlain word) := inferInstanceAs (Decidable (_ ∧ _))

/-- Whether names are told apart from each other and from numbers. -/
structure Readable (names : BitNames) : Prop where
  bits_nodup : (names.map Prod.fst).Nodup
  names_nodup : (names.map fun entry => entry.2.toList).Nodup
  plain : ∀ entry ∈ names, IsPlain entry.2.toList
  no_number : ∀ entry ∈ names, entry.2.toList.head? ≠ some '0'

theorem readable_features : Readable Features.bitNames :=
  ⟨by decide, by decide +kernel, by decide +kernel, by decide +kernel⟩

theorem readable_userClass : Readable UserClass.bitNames :=
  ⟨by decide, by decide +kernel, by decide +kernel, by decide +kernel⟩

theorem wordsOf_intercalate {words : List String} (h : ∀ word ∈ words, IsPlain word.toList) :
    wordsOf (" | ".intercalate words) = words.map String.toList := by
  have hfilter : ∀ pieces : List (List Char), (∀ piece ∈ pieces, IsPlain piece) →
      (List.intercalate [' ', '|', ' '] pieces).filter (fun c => c != ' ') =
        List.intercalate ['|'] pieces := by
    intro pieces
    induction pieces with
    | nil => exact fun _ => rfl
    | cons piece pieces ih =>
        intro hpieces
        obtain ⟨hpiece, hrest⟩ := List.forall_mem_cons.mp hpieces
        have hkeep : (piece.filter fun c => c != ' ') = piece := by
          rw [List.filter_eq_self]
          rintro c hc
          exact bne_iff_ne.mpr fun hspace => hpiece.2.1 (hspace ▸ hc)
        cases pieces with
        | nil => simpa using hkeep
        | cons next pieces =>
            have hne : next :: pieces ≠ [] := List.cons_ne_nil _ _
            rw [List.intercalate_cons_of_ne_nil hne, List.intercalate_cons_of_ne_nil hne,
              List.filter_append, List.filter_append, hkeep, ih hrest]
            rfl
  have hpieces : ∀ piece ∈ words.map String.toList, IsPlain piece := List.forall_mem_map.mpr h
  unfold wordsOf
  rw [String.toList_intercalate]
  rw [show " | ".toList = [' ', '|', ' '] from rfl, hfilter _ hpieces]
  cases hwords : words.map String.toList with
  | nil => rfl
  | cons piece pieces =>
      rw [hwords] at hpieces
      rw [List.splitOn_intercalate _ (fun piece hpiece => (hpieces piece hpiece).2.2)
        (List.cons_ne_nil _ _), List.filter_eq_self]
      intro piece hpiece
      simpa using (hpieces piece hpiece).1

/-- The words that show some bits, with the bits that each stands for. -/
def parts (names : BitNames) (bits : Nat) : List (String × Nat) :=
  ((names.known bits).map fun entry => (entry.2, 1 <<< entry.1)) ++
    if names.unknown bits = 0 then []
    else [("0x" ++ Hex.ofNat (names.unknown bits), names.unknown bits)]

theorem render_eq (names : BitNames) (bits : Nat) :
    names.render bits = " | ".intercalate ((names.parts bits).map Prod.fst) := by
  unfold render parts
  dsimp only
  rw [List.map_append, List.map_map]
  split_ifs <;> rfl

/-- Distinct bits of a number are together no more than the number. -/
theorem sum_bits_le {bits : Nat} {positions : List Nat} (hnodup : positions.Nodup)
    (h : ∀ i ∈ positions, bits.testBit i = true) :
    (positions.map fun i => 2 ^ i).sum ≤ bits := by
  have hsubset : positions.toFinset ⊆ bits.bitIndices.toFinset := by
    intro i hi
    rw [List.mem_toFinset] at hi ⊢
    exact Nat.mem_bitIndices.mpr (h i hi)
  calc (positions.map fun i => 2 ^ i).sum
      = ∑ i ∈ positions.toFinset, 2 ^ i := (List.sum_toFinset _ hnodup).symm
    _ ≤ ∑ i ∈ bits.bitIndices.toFinset, 2 ^ i := Finset.sum_le_sum_of_subset hsubset
    _ = bits := Finset.sum_toFinset_bitIndices_two_pow bits

variable {names : BitNames}

theorem sum_parts (h : names.Readable) (bits : Nat) :
    ((names.parts bits).map Prod.snd).sum = bits := by
  have hfold : ∀ (entries : BitNames) (n : Nat),
      entries.foldl (fun rest entry => rest - 1 <<< entry.1) n =
        n - (entries.map fun entry => 2 ^ entry.1).sum := by
    intro entries
    induction entries with
    | nil => exact fun n => rfl
    | cons entry entries ih =>
        intro n
        rw [List.foldl_cons, ih, List.map_cons, List.sum_cons, Nat.one_shiftLeft, Nat.sub_sub]
  have hle : ((names.known bits).map fun entry => 2 ^ entry.1).sum ≤ bits := by
    have hnodup : ((names.known bits).map Prod.fst).Nodup :=
      h.bits_nodup.sublist (List.filter_sublist.map _)
    have hset : ∀ i ∈ (names.known bits).map Prod.fst, bits.testBit i = true :=
      List.forall_mem_map.mpr fun entry hentry => (List.mem_filter.mp hentry).2
    have hsum := sum_bits_le hnodup hset
    rwa [List.map_map] at hsum
  have hunknown : names.unknown bits =
      bits - ((names.known bits).map fun entry => 2 ^ entry.1).sum := hfold _ _
  have hparts : ((names.parts bits).map Prod.snd).sum =
      ((names.known bits).map fun entry => 2 ^ entry.1).sum + names.unknown bits := by
    unfold parts
    rw [List.map_append, List.sum_append, List.map_map]
    congr 1
    · simp [Function.comp_def, Nat.one_shiftLeft]
    · split_ifs with hzero
      · rw [hzero]
        rfl
      · simp
  rw [hparts, hunknown, Nat.add_sub_of_le hle]

theorem ofWord?_of_mem_parts (h : names.Readable) {bits : Nat} {part : String × Nat}
    (hpart : part ∈ names.parts bits) :
    IsPlain part.1.toList ∧ names.ofWord? part.1.toList = some part.2 := by
  rcases List.mem_append.mp hpart with hknown | hrest
  · obtain ⟨entry, hentry, rfl⟩ := List.mem_map.mp hknown
    have hmem : entry ∈ names := (List.mem_filter.mp hentry).1
    have hfind := Keyed.find?_of_mem h.names_nodup hmem
    refine ⟨h.plain entry hmem, ?_⟩
    unfold ofWord?
    rw [hfind]
  · split_ifs at hrest with hzero
    · cases hrest
    · rw [List.mem_singleton.mp hrest]
      have htext : ("0x" ++ Hex.ofNat (names.unknown bits)).toList =
          '0' :: 'x' :: Nat.toDigits 16 (names.unknown bits) := by
        simp [Hex.ofNat]
      have hdigit : ∀ c : Char, Hex.digit? c = none →
          c ∉ Nat.toDigits 16 (names.unknown bits) := by
        intro c hnone hmem
        have hsome := Hex.isSome_digit?_of_mem hmem
        rw [hnone] at hsome
        cases hsome
      have hspace := hdigit ' ' (by decide +kernel)
      have hbar := hdigit '|' (by decide +kernel)
      have hfind : (names.find? fun entry => entry.2.toList ==
          '0' :: 'x' :: Nat.toDigits 16 (names.unknown bits)) = none := by
        rw [List.find?_eq_none]
        intro entry hentry hsame
        apply h.no_number entry hentry
        rw [beq_iff_eq.mp hsame]
        rfl
      rw [htext]
      refine ⟨⟨List.cons_ne_nil _ _, by simp [hspace], by simp [hbar]⟩, ?_⟩
      unfold ofWord?
      rw [hfind]
      exact Hex.toNat?_toDigits _

/-- Bits are read back from their text. -/
theorem ofText?_render (h : names.Readable) (bits : Nat) :
    names.ofText? (names.render bits) = some bits := by
  have hwords : wordsOf (names.render bits) =
      (names.parts bits).map fun part => part.1.toList := by
    rw [render_eq, wordsOf_intercalate, List.map_map]
    · rfl
    · exact List.forall_mem_map.mpr fun part hpart => (ofWord?_of_mem_parts h hpart).1
  unfold ofText?
  rw [hwords, mapM_map_eq_some fun part hpart => (ofWord?_of_mem_parts h hpart).2,
    Option.map_some, sum_parts h]

end BitNames

/-! ### Addresses -/

/-- The address of four numbers with dots between them. -/
def addressOf? (text : String) : Option UInt32 := do
  let numbers ← (text.toList.splitOn '.').mapM fun part => (String.ofList part).toNat?
  if numbers.length = 4 then Bytes.leading32? (numbers.map UInt8.ofNat) else none

theorem addressOf?_dottedAddress (v : UInt32) : addressOf? (dottedAddress v) = some v := by
  have hplain : ∀ piece ∈ (Bytes.ofWord32 v).map (fun b => (toString b.toNat).toList),
      '.' ∉ piece := by
    refine List.forall_mem_map.mpr fun b _ hdot => ?_
    have hrepr : '.' ∈ (b.toNat : Int).repr.toList := hdot
    rcases isDigit_or_sign_of_mem_repr hrepr with h | h
    · exact absurd h (by decide)
    · exact absurd h (by decide)
  have hsplit : (dottedAddress v).toList.splitOn '.' =
      (Bytes.ofWord32 v).map fun b => (toString b.toNat).toList := by
    unfold dottedAddress
    rw [String.toList_intercalate, List.map_map]
    exact List.splitOn_intercalate '.' hplain (List.cons_ne_nil _ _)
  have hnumbers : ((Bytes.ofWord32 v).map fun b => (toString b.toNat).toList).mapM
      (fun part => (String.ofList part).toNat?) = some ((Bytes.ofWord32 v).map UInt8.toNat) := by
    refine mapM_map_eq_some fun b _ => ?_
    rw [String.ofList_toList]
    exact Nat.toNat?_repr _
  have hsame : UInt8.ofNat ∘ UInt8.toNat = id := funext fun b => UInt8.ofNat_toNat
  unfold addressOf?
  rw [hsplit, hnumbers]
  simp only [Option.bind_eq_bind, Option.bind_some, List.length_map, Bytes.length_ofWord32,
    if_true, List.map_map, hsame, List.map_id]
  exact Bytes.leading32?_ofWord32 v []

/-! ### Values -/

namespace Json

/-- The value of a member of an object. -/
def member? (v : Json) (name : String) : Option Json :=
  match v with
  | object fields => fields.lookup name
  | _ => none

/-- What is read of a member that is null if it has no value. -/
def field? {α : Type} (v : Json) (name : String) (read : Json → Option α) : Option (Option α) :=
  match v.member? name with
  | some null => some none
  | some value => (read value).map some
  | none => none

def text? : Json → Option String
  | string text => some text
  | _ => none

/-- A number that is not negative. -/
def nat? : Json → Option Nat
  | number n => n.toNat?
  | _ => none

def octets? : Json → Option Bytes
  | array items => items.mapM fun item => item.nat?.map UInt8.ofNat
  | _ => none

theorem octets?_ofBytes (bytes : Bytes) : (ofBytes bytes).octets? = some bytes := by
  have h : (bytes.map fun b => number b.toNat).mapM (fun item => item.nat?.map UInt8.ofNat) =
      some (bytes.map id) := mapM_map_eq_some fun b _ => congrArg some UInt8.ofNat_toNat
  rwa [List.map_id] at h

theorem field?_of_member? {α : Type} {v : Json} {name : String} {read : Json → Option α}
    {f : α → Json} {o : Option α} (hmember : v.member? name = some (ofOption f o))
    (hread : ∀ a, read (f a) = some a) (hnull : ∀ a, f a ≠ null) : v.field? name read = some o := by
  unfold field?
  rw [hmember]
  cases o with
  | none => rfl
  | some a =>
      show (match some (f a) with
        | some null => some none
        | some value => (read value).map some
        | none => none) = _
      split
      · rename_i h
        exact absurd (Option.some.inj h) (hnull a)
      · rename_i value h
        rw [← Option.some.inj h, hread a]
        rfl
      · rename_i h
        cases h

end Json

def Text.ofJson? (v : Json) : Option Text := do
  return ⟨← (v.member? "bytes").bind Json.octets?, ← v.field? "encoding" Json.text?⟩

theorem Text.ofJson?_toJson (t : Text) : ofJson? t.toJson = some t := by
  have hbytes : (t.toJson.member? "bytes").bind Json.octets? = some t.bytes :=
    Json.octets?_ofBytes t.bytes
  have hencoding : t.toJson.field? "encoding" Json.text? = some t.encoding :=
    Json.field?_of_member? rfl (fun _ => rfl) nofun
  unfold ofJson?
  rw [hbytes, hencoding]
  rfl

def Icon.ofJson? (v : Json) : Option Icon := v.nat?.bind Icon.ofNat?

theorem Icon.ofJson?_toJson (icon : Icon) : ofJson? icon.toJson = some icon := by
  have hword : UInt8.ofNat icon.index.toNat = icon.index := UInt8.ofNat_toNat
  show ofNat? icon.index.toNat = some icon
  unfold ofNat?
  rw [if_pos icon.index.toNat_lt, dif_pos (hword.symm ▸ icon.index_ne_zero)]
  exact congrArg some (Icon.mk.injEq .. ▸ hword)

def IcqStatus.ofJson? (v : Json) : Option IcqStatus := do
  let flags ← (v.member? "flags").bind Json.nat?
  let status ← (v.member? "status").bind Json.nat?
  return ⟨.ofNat flags, .ofNat status⟩

theorem IcqStatus.ofJson?_toJson (s : IcqStatus) : ofJson? s.toJson = some s := by
  obtain ⟨flags, status⟩ := s
  show some (IcqStatus.mk (.ofNat flags.toNat) (.ofNat status.toNat)) = _
  rw [UInt16.ofNat_toNat, UInt16.ofNat_toNat]

def ChecksumKind.ofName? (name : String) : Option ChecksumKind :=
  [primary, secondary].find? fun kind => kind.name == name

def IconChecksum.ofJson? (v : Json) : Option IconChecksum := do
  let kind ← ((v.member? "variant").bind Json.text?).bind ChecksumKind.ofName?
  let digest ← (v.member? "digest").bind Json.octets?
  IconChecksum.ofDigest? kind digest

theorem IconChecksum.ofJson?_toJson (c : IconChecksum) : ofJson? c.toJson = some c := by
  have hkind : ((c.toJson.member? "variant").bind Json.text?).bind ChecksumKind.ofName? =
      some c.kind := by
    show ChecksumKind.ofName? c.kind.name = some c.kind
    cases c.kind <;> decide +kernel
  have hdigest : (c.toJson.member? "digest").bind Json.octets? = some c.digest :=
    Json.octets?_ofBytes c.digest
  unfold ofJson?
  rw [hkind, hdigest]
  exact dif_pos c.digest_length

def Extras.ofJson? (v : Json) : Option Extras := do
  return {
    iconChecksum := ← v.field? "icon_checksum" IconChecksum.ofJson?
    away := ← v.field? "away" Text.ofJson?
    externalLink := ← v.field? "external_link" Text.ofJson?
    mood := ← v.field? "mood" Icon.ofJson? }

theorem Extras.ofJson?_toJson (x : Extras) : ofJson? x.toJson = some x := by
  have hchecksum : x.toJson.field? "icon_checksum" IconChecksum.ofJson? = some x.iconChecksum :=
    Json.field?_of_member? rfl IconChecksum.ofJson?_toJson nofun
  have haway : x.toJson.field? "away" Text.ofJson? = some x.away :=
    Json.field?_of_member? rfl Text.ofJson?_toJson nofun
  have hlink : x.toJson.field? "external_link" Text.ofJson? = some x.externalLink :=
    Json.field?_of_member? rfl Text.ofJson?_toJson nofun
  have hmood : x.toJson.field? "mood" Icon.ofJson? = some x.mood :=
    Json.field?_of_member? rfl Icon.ofJson?_toJson nofun
  unfold ofJson?
  rw [hchecksum, haway, hlink, hmood]
  rfl

def Features.ofText? (text : String) : Option Features :=
  (bitNames.ofText? text).map fun bits => ⟨.ofNat bits⟩

theorem Features.ofText?_render (f : Features) : ofText? f.render = some f := by
  unfold ofText? render
  rw [BitNames.ofText?_render BitNames.readable_features, Option.map_some, UInt32.ofNat_toNat]

def Advertised.ofJson? (v : Json) : Option Advertised := do
  return {
    features := ← ((v.member? "flags").bind Json.text?).bind Features.ofText?
    icon := ← v.field? "custom_icon" Icon.ofJson? }

theorem Advertised.ofJson?_toJson (a : Advertised) : ofJson? a.toJson = some a := by
  have hfeatures : ((a.toJson.member? "flags").bind Json.text?).bind Features.ofText? =
      some a.features := a.features.ofText?_render
  have hicon : a.toJson.field? "custom_icon" Icon.ofJson? = some a.icon :=
    Json.field?_of_member? rfl Icon.ofJson?_toJson nofun
  unfold ofJson?
  rw [hfeatures, hicon]
  rfl

def UserClass.ofText? (text : String) : Option UserClass :=
  (bitNames.ofText? text).map fun bits => ⟨.ofNat bits⟩

theorem UserClass.ofText?_render (c : UserClass) : ofText? c.render = some c := by
  unfold ofText? render
  rw [BitNames.ofText?_render BitNames.readable_userClass, Option.map_some, UInt16.ofNat_toNat]

def UserClass.ofJson? (v : Json) : Option UserClass := v.text?.bind ofText?

theorem UserClass.ofJson?_string (c : UserClass) : ofJson? (.string c.render) = some c := by
  rw [ofJson?, Json.text?, Option.bind_some, ofText?_render]

/-! ### Records -/

namespace Record

def word16? (v : Json) : Option UInt16 := v.nat?.map UInt16.ofNat

def word32? (v : Json) : Option UInt32 := v.nat?.map UInt32.ofNat

theorem word16?_number (w : UInt16) : word16? (.number w.toNat) = some w :=
  congrArg some UInt16.ofNat_toNat

theorem word32?_number (w : UInt32) : word32? (.number w.toNat) = some w :=
  congrArg some UInt32.ofNat_toNat

def address? (v : Json) : Option UInt32 := v.text?.bind addressOf?

theorem address?_string (w : UInt32) : address? (.string (dottedAddress w)) = some w := by
  rw [address?, Json.text?, Option.bind_some, addressOf?_dottedAddress]

/-- The record of an object. -/
def ofJson? (v : Json) : Option Record := do
  return {
    handle := ← (v.member? "handle").bind Json.text?
    warningLevel := ← (v.member? "warning_level").bind word16?
    userClass := ← v.field? "user_class" UserClass.ofJson?
    createdAt := ← v.field? "created_at" word32?
    onlineSince := ← v.field? "online_since" word32?
    memberSince := ← v.field? "member_since" word32?
    idleMinutes := ← v.field? "idle_minutes" word16?
    sessionLength := ← v.field? "session_length" word32?
    icqStatus := ← v.field? "icq_status" IcqStatus.ofJson?
    externalIp := ← v.field? "external_ip" address?
    advertised := ← v.field? "capabilities" Advertised.ofJson?
    extras := ← v.field? "extras" Extras.ofJson?
    profile := ← v.field? "profile" Text.ofJson?
    awayMessage := ← v.field? "away_message" Text.ofJson? }

theorem ofJson?_toJson (r : Record) : ofJson? r.toJson = some r := by
  have hhandle : (r.toJson.member? "handle").bind Json.text? = some r.handle := rfl
  have hlevel : (r.toJson.member? "warning_level").bind word16? = some r.warningLevel :=
    word16?_number r.warningLevel
  have hclass : r.toJson.field? "user_class" UserClass.ofJson? = some r.userClass :=
    Json.field?_of_member? rfl UserClass.ofJson?_string nofun
  have hcreated : r.toJson.field? "created_at" word32? = some r.createdAt :=
    Json.field?_of_member? rfl word32?_number nofun
  have honline : r.toJson.field? "online_since" word32? = some r.onlineSince :=
    Json.field?_of_member? rfl word32?_number nofun
  have hmember : r.toJson.field? "member_since" word32? = some r.memberSince :=
    Json.field?_of_member? rfl word32?_number nofun
  have hidle : r.toJson.field? "idle_minutes" word16? = some r.idleMinutes :=
    Json.field?_of_member? rfl word16?_number nofun
  have hsession : r.toJson.field? "session_length" word32? = some r.sessionLength :=
    Json.field?_of_member? rfl word32?_number nofun
  have hstatus : r.toJson.field? "icq_status" IcqStatus.ofJson? = some r.icqStatus :=
    Json.field?_of_member? rfl IcqStatus.ofJson?_toJson nofun
  have haddress : r.toJson.field? "external_ip" address? = some r.externalIp :=
    Json.field?_of_member? rfl address?_string nofun
  have hcapabilities : r.toJson.field? "capabilities" Advertised.ofJson? = some r.advertised :=
    Json.field?_of_member? rfl Advertised.ofJson?_toJson nofun
  have hextras : r.toJson.field? "extras" Extras.ofJson? = some r.extras :=
    Json.field?_of_member? rfl Extras.ofJson?_toJson nofun
  have hprofile : r.toJson.field? "profile" Text.ofJson? = some r.profile :=
    Json.field?_of_member? rfl Text.ofJson?_toJson nofun
  have haway : r.toJson.field? "away_message" Text.ofJson? = some r.awayMessage :=
    Json.field?_of_member? rfl Text.ofJson?_toJson nofun
  unfold ofJson?
  rw [hhandle, hlevel, hclass, hcreated, honline, hmember, hidle, hsession, hstatus, haddress,
    hcapabilities, hextras, hprofile, haway]
  rfl

/-- The record of a text. -/
def ofText? (text : String) : Option Record := (Json.ofText? text).bind ofJson?

/-- **A record is read back from the text that is shown for it.** -/
theorem ofText?_pretty (r : Record) : ofText? r.toJson.pretty = some r := by
  unfold ofText?
  rw [Json.ofText?_pretty, Option.bind_some, ofJson?_toJson]

end Record
end Whereabouts
