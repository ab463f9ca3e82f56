import Whereabouts.Wire.Octets

/-! # Hexadecimal text

An octet is two digits, the high half first.  Writing uses lower-case digits, reading takes
either case.  Reading goes over the UTF-8 octets of the text, so that a refused digit is
reported by its octet and by its offset in octets.  `read_flatMap_ofOctet` says that reading undoes
writing. -/

namespace Whereabouts

/-- Why a text is no hexadecimal string. -/
inductive HexFault where
  /-- A half octet is left over. -/
  | oddLength
  /-- The octet at this offset is no digit. -/
  | badDigit (octet : UInt8) (offset : Nat)
deriving DecidableEq, Repr

namespace Hex

/-- The digit of a number below sixteen. -/
def digit (n : Nat) : Char :=
  if n < 10 then Char.ofNat (n + 48) else Char.ofNat (n + 87)

/-- The value of a digit in either case. -/
def value? (octet : UInt8) : Option Nat :=
  if 48 ≤ octet ∧ octet ≤ 57 then some (octet.toNat - 48)
  else if 97 ≤ octet ∧ octet ≤ 102 then some (octet.toNat - 87)
  else if 65 ≤ octet ∧ octet ≤ 70 then some (octet.toNat - 55)
  else none

/-- The value of the digit at an offset. -/
def valueAt (octet : UInt8) (offset : Nat) : Except HexFault Nat :=
  match value? octet with
  | some v => .ok v
  | none => .error (.badDigit octet offset)

/-- The two digits of an octet. -/
def ofOctet (octet : UInt8) : List Char :=
  [digit (octet.toNat / 16), digit (octet.toNat % 16)]

/-- The octets of a run of digits that starts at an offset, after those in `done`, the last of
which comes first. -/
def readFrom (offset : Nat) (done : Bytes) : Bytes → Except HexFault Bytes
  | [] => .ok done.reverse
  | [_] => .error .oddLength
  | high :: low :: rest =>
      match valueAt high offset, valueAt low (offset + 1) with
      | .ok h, .ok l => readFrom (offset + 2) (UInt8.ofNat (h * 16 + l) :: done) rest
      | .error e, _ => .error e
      | _, .error e => .error e

/-- The octets that digits stand for.  An odd number of digits is refused before any digit is
looked at. -/
def read (digits : Bytes) : Except HexFault Bytes :=
  if digits.length % 2 = 1 then .error .oddLength else readFrom 0 [] digits

/-- The digits of a number, the highest first, without leading zeros. -/
def ofNat (n : Nat) : String := String.ofList (Nat.toDigits 16 n)

end Hex

/-- The text of an octet string. -/
def Bytes.toHex (bytes : Bytes) : String := String.ofList (bytes.flatMap Hex.ofOctet)

namespace Hex

theorem value?_digit (n : Nat) (h : n < 16) :
    value? (UInt8.ofNat (digit n).toNat) = some n := by
  have key : ∀ k ∈ List.range 16, value? (UInt8.ofNat (digit k).toNat) = some k := by decide
  exact key n (List.mem_range.mpr h)

theorem readFrom_ofOctet (offset : Nat) (done rest : Bytes) (octet : UInt8) :
    readFrom offset done (((ofOctet octet).map fun c => UInt8.ofNat c.toNat) ++ rest) =
      readFrom (offset + 2) (octet :: done) rest := by
  have h := octet.toNat_lt
  have e : UInt8.ofNat (octet.toNat / 16 * 16 + octet.toNat % 16) = octet := by
    rw [Nat.div_add_mod' octet.toNat 16]
    exact UInt8.ofNat_toNat
  simp only [ofOctet, List.map_cons, List.map_nil, List.cons_append, List.nil_append, readFrom,
    valueAt, value?_digit _ (show octet.toNat / 16 < 16 by omega),
    value?_digit _ (show octet.toNat % 16 < 16 by omega), e]

/-- Reading what was written gives the octets back. -/
theorem read_flatMap_ofOctet (bytes : Bytes) :
    read ((bytes.flatMap ofOctet).map fun c => UInt8.ofNat c.toNat) = .ok bytes := by
  have run : ∀ (bs : Bytes) (offset : Nat) (done : Bytes),
      readFrom offset done ((bs.flatMap ofOctet).map fun c => UInt8.ofNat c.toNat) =
        .ok (done.reverse ++ bs) := by
    intro bs
    induction bs with
    | nil => simp [readFrom]
    | cons b bs ih =>
        intro offset done
        rw [List.flatMap_cons, List.map_append, readFrom_ofOctet, ih]
        simp
  have even : ∀ bs : Bytes,
      ((bs.flatMap ofOctet).map fun c => UInt8.ofNat c.toNat).length % 2 = 0 := by
    intro bs
    induction bs with
    | nil => rfl
    | cons b bs ih =>
        rw [List.flatMap_cons, List.map_append, List.length_append, Nat.add_mod, ih]
        simp [ofOctet]
  rw [read, if_neg (by rw [even]; omega), run]
  rfl

end Hex
end Whereabouts
