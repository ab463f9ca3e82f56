import Mathlib.Data.List.Basic
import Whereabouts.Wire.Utf8

/-! # Text on the wire and back

A text that is written and read again is the same text (`decodeLossy_encode`).  A text whose
octets are cut loses the characters behind the cut, and one that is cut through comes back as
a replacement character: `clip` is what is read of the first octets of a text and `cutChars`
gives its characters one by one (`clip_eq`).

A replacement takes three octets, so it may stand behind the cut that it came from, and another
cut at the same place changes nothing: `clip_eq_self_iff` says which texts a cut leaves alone. -/

namespace Whereabouts
namespace Utf8

/-! ### The octets of a character -/

/-- `Spelled n bytes`: the octets are the UTF-8 of the character with number `n`. -/
inductive Spelled : Nat → Bytes → Prop where
  | one {n : Nat} : n < 128 → Spelled n [UInt8.ofNat n]
  | two {a b : Nat} : 2 ≤ a → a < 32 → b < 64 →
      Spelled (a * 64 + b) [UInt8.ofNat (a + 0xC0), UInt8.ofNat (b + 0x80)]
  | three {a b c : Nat} : a < 16 → b < 64 → c < 64 → (a = 0 → 32 ≤ b) → (a = 13 → b < 32) →
      Spelled ((a * 64 + b) * 64 + c)
        [UInt8.ofNat (a + 0xE0), UInt8.ofNat (b + 0x80), UInt8.ofNat (c + 0x80)]
  | four {a b c d : Nat} : a < 5 → b < 64 → c < 64 → d < 64 → (a = 0 → 16 ≤ b) →
      (a = 4 → b < 16) →
      Spelled (((a * 64 + b) * 64 + c) * 64 + d)
        [UInt8.ofNat (a + 0xF0), UInt8.ofNat (b + 0x80), UInt8.ofNat (c + 0x80),
          UInt8.ofNat (d + 0x80)]

theorem char_bounds (c : Char) : c.toNat < 0xD800 ∨ 0xDFFF < c.toNat ∧ c.toNat < 0x110000 := by
  have h := c.valid
  simp only [UInt32.isValidChar, Nat.isValidChar] at h
  exact h

theorem spelled_utf8EncodeChar (c : Char) : Spelled c.toNat (String.utf8EncodeChar c) := by
  have hc := char_bounds c
  generalize hn : c.toNat = n at hc
  have hv : c.val.toNat = n := hn
  simp only [String.utf8EncodeChar, hv]
  split
  · exact .one (by omega)
  split
  · have h := Spelled.two (a := n / 64 % 32) (b := n % 64) (by omega) (by omega) (by omega)
    rwa [show n / 64 % 32 * 64 + n % 64 = n by omega] at h
  split
  · have h := Spelled.three (a := n / 4096 % 16) (b := n / 64 % 64) (c := n % 64)
      (by omega) (by omega) (by omega) (by omega) (by omega)
    rwa [show (n / 4096 % 16 * 64 + n / 64 % 64) * 64 + n % 64 = n by omega] at h
  · have h := Spelled.four (a := n / 262144 % 8) (b := n / 4096 % 64) (c := n / 64 % 64)
      (d := n % 64) (by omega) (by omega) (by omega) (by omega) (by omega) (by omega)
    rwa [show ((n / 262144 % 8 * 64 + n / 4096 % 64) * 64 + n / 64 % 64) * 64 + n % 64 = n by
      omega] at h

/-! ### The decoder on the octets of a character -/

/-- The state after octets, with the characters that they complete before those in `done`. -/
def walk (state : State) (done : List Char) : Bytes → State × List Char
  | [] => (state, done)
  | b :: rest => walk (step state b).1 ((step state b).2 ++ done) rest

theorem run_append (state : State) (done : List Char) (front rest : Bytes) :
    run state done (front ++ rest) =
      run (walk state done front).1 (walk state done front).2 rest := by
  induction front generalizing state done with
  | nil => rfl
  | cons b front ih => exact ih _ _

theorem walk_cons {state next : State} {b : UInt8} {chars : List Char}
    (h : step state b = (next, chars)) (done : List Char) (rest : Bytes) :
    walk state done (b :: rest) = walk next (chars ++ done) rest := by
  rw [walk, h]

theorem ready_ascii {n : Nat} (h : n < 128) :
    step .ready (UInt8.ofNat n) = (.ready, [Char.ofNat n]) := by
  have e : (UInt8.ofNat n).toNat = n := by
    rw [UInt8.toNat_ofNat']
    omega
  have hr : UInt8.ofNat n ≤ 0x7F := by
    rw [UInt8.le_iff_toNat_le, e]
    exact Nat.le_of_lt_succ h
  simp only [step, begin, if_pos hr, e]

theorem ready_two {a : Nat} (h : 2 ≤ a) (h' : a < 32) :
    step .ready (UInt8.ofNat (a + 0xC0)) = (.inside a 0 0x80 0xBF, []) := by
  have key : ∀ n < 32, 2 ≤ n →
      step .ready (UInt8.ofNat (n + 0xC0)) = (.inside n 0 0x80 0xBF, []) := by
    decide
  exact key a h' h

theorem ready_three {a : Nat} (h : a < 16) :
    step .ready (UInt8.ofNat (a + 0xE0)) =
      (.inside a 1 (if a = 0 then 0xA0 else 0x80) (if a = 13 then 0x9F else 0xBF), []) := by
  have key : ∀ n < 16, step .ready (UInt8.ofNat (n + 0xE0)) =
      (.inside n 1 (if n = 0 then 0xA0 else 0x80) (if n = 13 then 0x9F else 0xBF), []) := by
    decide
  exact key a h

theorem ready_four {a : Nat} (h : a < 5) :
    step .ready (UInt8.ofNat (a + 0xF0)) =
      (.inside a 2 (if a = 0 then 0x90 else 0x80) (if a = 4 then 0x8F else 0xBF), []) := by
  have key : ∀ n < 5, step .ready (UInt8.ofNat (n + 0xF0)) =
      (.inside n 2 (if n = 0 then 0x90 else 0x80) (if n = 4 then 0x8F else 0xBF), []) := by
    decide
  exact key a h

/-- What an octet in range does inside a character. -/
theorem step_tail {x : Nat} {low high : UInt8} (bits more : Nat) (hx : x < 64)
    (hl : low.toNat ≤ x + 0x80) (hh : x + 0x80 ≤ high.toNat) :
    step (.inside bits more low high) (UInt8.ofNat (x + 0x80)) =
      match more with
      | 0 => (.ready, [Char.ofNat (bits * 64 + x)])
      | more + 1 => (.inside (bits * 64 + x) more 0x80 0xBF, []) := by
  have e : (UInt8.ofNat (x + 0x80)).toNat = x + 0x80 := by
    rw [UInt8.toNat_ofNat']
    omega
  have hr : low ≤ UInt8.ofNat (x + 0x80) ∧ UInt8.ofNat (x + 0x80) ≤ high := by
    rw [UInt8.le_iff_toNat_le, UInt8.le_iff_toNat_le, e]
    exact ⟨hl, hh⟩
  cases more with
  | zero => simp only [step, if_pos hr, e, Nat.add_sub_cancel]
  | succ more => simp only [step, if_pos hr, e, Nat.add_sub_cancel]

/-- An octet behind the second may be any that continues a character. -/
theorem step_plain {x : Nat} (bits more : Nat) (hx : x < 64) :
    step (.inside bits more 0x80 0xBF) (UInt8.ofNat (x + 0x80)) =
      match more with
      | 0 => (.ready, [Char.ofNat (bits * 64 + x)])
      | more + 1 => (.inside (bits * 64 + x) more 0x80 0xBF, []) :=
  step_tail bits more hx (Nat.le_add_left _ _) (Nat.add_le_add_right (Nat.le_of_lt_succ hx) 0x80)

/-- The second octet may have a higher low end, depending on the first. -/
theorem toNat_low_le {p : Prop} [Decidable p] {x : Nat} (low : UInt8)
    (h : p → low.toNat ≤ x + 0x80) : (if p then low else 0x80).toNat ≤ x + 0x80 := by
  split_ifs with hp
  · exact h hp
  · exact Nat.le_add_left _ _

/-- The second octet may have a lower high end, depending on the first. -/
theorem le_toNat_high {p : Prop} [Decidable p] {x : Nat} (high : UInt8) (hx : x < 64)
    (h : p → x + 0x80 ≤ high.toNat) : x + 0x80 ≤ (if p then high else 0xBF).toNat := by
  split_ifs with hp
  · exact h hp
  · exact Nat.add_le_add_right (Nat.le_of_lt_succ hx) 0x80

theorem step_three {a b : Nat} (hb : b < 64) (h0 : a = 0 → 32 ≤ b) (h13 : a = 13 → b < 32) :
    step (.inside a 1 (if a = 0 then 0xA0 else 0x80) (if a = 13 then 0x9F else 0xBF))
      (UInt8.ofNat (b + 0x80)) = (.inside (a * 64 + b) 0 0x80 0xBF, []) :=
  step_tail a 1 hb (toNat_low_le 0xA0 fun e => Nat.add_le_add_right (h0 e) 0x80)
    (le_toNat_high 0x9F hb fun e => Nat.add_le_add_right (Nat.le_of_lt_succ (h13 e)) 0x80)

theorem step_four {a b : Nat} (hb : b < 64) (h0 : a = 0 → 16 ≤ b) (h4 : a = 4 → b < 16) :
    step (.inside a 2 (if a = 0 then 0x90 else 0x80) (if a = 4 then 0x8F else 0xBF))
      (UInt8.ofNat (b + 0x80)) = (.inside (a * 64 + b) 1 0x80 0xBF, []) :=
  step_tail a 2 hb (toNat_low_le 0x90 fun e => Nat.add_le_add_right (h0 e) 0x80)
    (le_toNat_high 0x8F hb fun e => Nat.add_le_add_right (Nat.le_of_lt_succ (h4 e)) 0x80)

theorem walk_spelled {n : Nat} {bytes : Bytes} (h : Spelled n bytes) (done : List Char) :
    walk .ready done bytes = (.ready, Char.ofNat n :: done) := by
  cases h with
  | one hn =>
      rw [walk_cons (ready_ascii hn)]
      rfl
  | two ha ha' hb =>
      rw [walk_cons (ready_two ha ha'), walk_cons (step_plain _ 0 hb)]
      rfl
  | three ha hb hc h0 h13 =>
      rw [walk_cons (ready_three ha), walk_cons (step_three hb h0 h13),
        walk_cons (step_plain _ 0 hc)]
      rfl
  | four ha hb hc hd h0 h4 =>
      rw [walk_cons (ready_four ha), walk_cons (step_four hb h0 h4),
        walk_cons (step_plain _ 1 hc), walk_cons (step_plain _ 0 hd)]
      rfl

/-- Some but not all octets of a character leave the decoder inside it. -/
theorem walk_take_spelled {n k : Nat} {bytes : Bytes} (h : Spelled n bytes) (done : List Char)
    (hk : 0 < k) (hk' : k < bytes.length) :
    ∃ bits more low high, walk .ready done (bytes.take k) = (.inside bits more low high, done) := by
  cases h with
  | one hn =>
      simp only [List.length_cons, List.length_nil] at hk'
      omega
  | two ha ha' hb =>
      simp only [List.length_cons, List.length_nil] at hk'
      obtain rfl : k = 1 := by omega
      exact ⟨_, _, _, _, walk_cons (ready_two ha ha') _ _⟩
  | three ha hb hc h0 h13 =>
      simp only [List.length_cons, List.length_nil] at hk'
      obtain rfl | rfl : k = 1 ∨ k = 2 := by omega
      · exact ⟨_, _, _, _, walk_cons (ready_three ha) _ _⟩
      · exact ⟨_, _, _, _, (walk_cons (ready_three ha) _ _).trans
          (walk_cons (step_three hb h0 h13) _ _)⟩
  | four ha hb hc hd h0 h4 =>
      simp only [List.length_cons, List.length_nil] at hk'
      obtain rfl | rfl | rfl : k = 1 ∨ k = 2 ∨ k = 3 := by omega
      · exact ⟨_, _, _, _, walk_cons (ready_four ha) _ _⟩
      · exact ⟨_, _, _, _, (walk_cons (ready_four ha) _ _).trans
          (walk_cons (step_four hb h0 h4) _ _)⟩
      · exact ⟨_, _, _, _, ((walk_cons (ready_four ha) _ _).trans
          (walk_cons (step_four hb h0 h4) _ _)).trans (walk_cons (step_plain _ 1 hc) _ _)⟩

theorem run_utf8EncodeChar (c : Char) (done : List Char) (rest : Bytes) :
    run .ready done (String.utf8EncodeChar c ++ rest) = run .ready (c :: done) rest := by
  rw [run_append, walk_spelled (spelled_utf8EncodeChar c), Char.ofNat_toNat]

theorem run_take_utf8EncodeChar {c : Char} {k : Nat} (done : List Char) (hk : 0 < k)
    (hk' : k < c.utf8Size) :
    run .ready done ((String.utf8EncodeChar c).take k) = replacement :: done := by
  rw [← String.length_utf8EncodeChar] at hk'
  obtain ⟨bits, more, low, high, e⟩ := walk_take_spelled (spelled_utf8EncodeChar c) done hk hk'
  have h := run_append .ready done ((String.utf8EncodeChar c).take k) []
  rw [List.append_nil, e] at h
  exact h

/-! ### Cut texts -/

/-- What is left of characters when their octets are cut after `room`: the whole ones, and a
replacement for one that is cut through. -/
def cutChars : Nat → List Char → List Char
  | _, [] => []
  | room, c :: rest =>
      if room = 0 then []
      else if c.utf8Size ≤ room then c :: cutChars (room - c.utf8Size) rest
      else [replacement]

/-- What is read of the first octets of a text. -/
def clip (limit : Nat) (s : String) : String := decodeLossy ((encode s).take limit)

theorem run_take_flatMap (room : Nat) (done cs : List Char) :
    run .ready done ((cs.flatMap String.utf8EncodeChar).take room) =
      (cutChars room cs).reverse ++ done := by
  induction cs generalizing room done with
  | nil => simp [cutChars, run, finish]
  | cons c rest ih =>
      unfold cutChars
      rw [List.flatMap_cons]
      by_cases h0 : room = 0
      · rw [if_pos h0, h0]
        rfl
      rw [if_neg h0]
      have hlen := String.length_utf8EncodeChar c
      by_cases hfit : c.utf8Size ≤ room
      · have hwhole : (String.utf8EncodeChar c).take room = String.utf8EncodeChar c :=
          List.take_of_length_le (by omega)
        rw [if_pos hfit, List.take_append, hwhole, hlen, run_utf8EncodeChar, ih]
        simp
      · have hpart : (String.utf8EncodeChar c ++ rest.flatMap String.utf8EncodeChar).take room =
            (String.utf8EncodeChar c).take room :=
          List.take_append_of_le_length (by omega)
        rw [if_neg hfit, hpart,
          run_take_utf8EncodeChar done (Nat.pos_of_ne_zero h0) (Nat.lt_of_not_le hfit)]
        rfl

theorem clip_eq (limit : Nat) (s : String) :
    clip limit s = String.ofList (cutChars limit s.toList) := by
  unfold clip decodeLossy encode
  rw [run_take_flatMap, List.append_nil, List.reverse_reverse]

theorem length_flatMap_cons (c : Char) (rest : List Char) :
    ((c :: rest).flatMap String.utf8EncodeChar).length =
      c.utf8Size + (rest.flatMap String.utf8EncodeChar).length := by
  rw [List.flatMap_cons, List.length_append, String.length_utf8EncodeChar]

theorem cutChars_of_le {room : Nat} {cs : List Char}
    (h : (cs.flatMap String.utf8EncodeChar).length ≤ room) : cutChars room cs = cs := by
  induction cs generalizing room with
  | nil => rfl
  | cons c rest ih =>
      rw [length_flatMap_cons] at h
      have hc := c.utf8Size_pos
      unfold cutChars
      rw [if_neg (by omega), if_pos (by omega), ih (by omega)]

/-- A text that fits is read as it was written. -/
theorem clip_of_le {limit : Nat} {s : String} (h : (encode s).length ≤ limit) :
    clip limit s = s := by
  rw [clip_eq, cutChars_of_le h, String.ofList_toList]

/-- **Written text is read back**, whatever its characters are. -/
theorem decodeLossy_encode (s : String) : decodeLossy (encode s) = s := by
  have h := clip_of_le (Nat.le_refl (encode s).length)
  rwa [clip, List.take_length] at h

/-! ### What a cut leaves -/

theorem cutChars_eq_self_iff (room : Nat) (cs : List Char) :
    cutChars room cs = cs ↔
      (cs.flatMap String.utf8EncodeChar).length ≤ room ∨
        ∃ front, cs = front ++ [replacement] ∧
          (front.flatMap String.utf8EncodeChar).length < room := by
  induction cs generalizing room with
  | nil => simp [cutChars]
  | cons c rest ih =>
      have hc := c.utf8Size_pos
      unfold cutChars
      rw [length_flatMap_cons]
      by_cases h0 : room = 0
      · rw [if_pos h0, h0]
        simp
        omega
      rw [if_neg h0]
      by_cases hfit : c.utf8Size ≤ room
      · rw [if_pos hfit, List.cons.injEq, ih]
        constructor
        · rintro ⟨-, h | ⟨front, rfl, h⟩⟩
          · exact .inl (by omega)
          · exact .inr ⟨c :: front, rfl, by rw [length_flatMap_cons]; omega⟩
        · rintro (h | ⟨front, e, h⟩)
          · exact ⟨rfl, .inl (by omega)⟩
          · cases front with
            | nil =>
                obtain ⟨-, rfl⟩ := List.cons.inj e
                exact ⟨rfl, .inl (Nat.zero_le _)⟩
            | cons d front =>
                obtain ⟨rfl, rfl⟩ := List.cons.inj e
                rw [length_flatMap_cons] at h
                exact ⟨rfl, .inr ⟨front, rfl, by omega⟩⟩
      · rw [if_neg hfit]
        constructor
        · intro e
          exact .inr ⟨[], e.symm, Nat.pos_of_ne_zero h0⟩
        · rintro (h | ⟨front, e, h⟩)
          · omega
          · cases front with
            | nil => exact e.symm
            | cons d front =>
                obtain ⟨rfl, rfl⟩ := List.cons.inj e
                rw [length_flatMap_cons] at h
                omega

/-- A cut leaves a text alone exactly if the text fits, or ends in a replacement character that
the cut goes through. -/
theorem clip_eq_self_iff (limit : Nat) (s : String) :
    clip limit s = s ↔
      (encode s).length ≤ limit ∨
        ∃ front, s = front.push replacement ∧ (encode front).length < limit := by
  rw [clip_eq, ← String.toList_inj, String.toList_ofList, cutChars_eq_self_iff]
  refine or_congr Iff.rfl ⟨?_, ?_⟩
  · rintro ⟨front, e, h⟩
    refine ⟨String.ofList front, ?_, by rwa [encode, String.toList_ofList]⟩
    rw [← String.toList_inj, e]
    simp
  · rintro ⟨front, rfl, h⟩
    exact ⟨front.toList, by simp, h⟩

end Utf8
end Whereabouts
