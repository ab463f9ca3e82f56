/-! # Octet strings

What travels on the wire is a list of octets.  Whole numbers are written big-endian: the octet
that weighs most comes first.  `word16_ofWord16` and `word32_ofWord32` say that reading undoes
writing, and `pieces` splits a string into parts of one width. -/

namespace Whereabouts

/-- A string of octets. -/
abbrev Bytes := List UInt8

namespace Bytes

/-! ### Whole numbers -/

def ofWord16 (v : UInt16) : Bytes :=
  [UInt8.ofNat (v.toNat / 256), UInt8.ofNat (v.toNat % 256)]

def ofWord32 (v : UInt32) : Bytes :=
  [UInt8.ofNat (v.toNat / 16777216), UInt8.ofNat (v.toNat / 65536 % 256),
    UInt8.ofNat (v.toNat / 256 % 256), UInt8.ofNat (v.toNat % 256)]

def word16 (a b : UInt8) : UInt16 := UInt16.ofNat (a.toNat * 256 + b.toNat)

def word32 (a b c d : UInt8) : UInt32 :=
  UInt32.ofNat (((a.toNat * 256 + b.toNat) * 256 + c.toNat) * 256 + d.toNat)

/-- The 16-bit number that a string starts with, if it is long enough. -/
def leading16? : Bytes → Option UInt16
  | a :: b :: _ => some (word16 a b)
  | _ => none

/-- The 32-bit number that a string starts with, if it is long enough. -/
def leading32? : Bytes → Option UInt32
  | a :: b :: c :: d :: _ => some (word32 a b c d)
  | _ => none

@[simp] theorem length_ofWord16 (v : UInt16) : (ofWord16 v).length = 2 := rfl

@[simp] theorem length_ofWord32 (v : UInt32) : (ofWord32 v).length = 4 := rfl

theorem word16_ofWord16 (v : UInt16) :
    word16 (UInt8.ofNat (v.toNat / 256)) (UInt8.ofNat (v.toNat % 256)) = v := by
  have h : v.toNat < 65536 := v.toNat_lt
  apply UInt16.toNat_inj.mp
  simp only [word16, UInt16.toNat_ofNat', UInt8.toNat_ofNat']
  omega

theorem word32_ofWord32 (v : UInt32) :
    word32 (UInt8.ofNat (v.toNat / 16777216)) (UInt8.ofNat (v.toNat / 65536 % 256))
      (UInt8.ofNat (v.toNat / 256 % 256)) (UInt8.ofNat (v.toNat % 256)) = v := by
  have h : v.toNat < 4294967296 := v.toNat_lt
  apply UInt32.toNat_inj.mp
  simp only [word32, UInt32.toNat_ofNat', UInt8.toNat_ofNat']
  omega

@[simp] theorem leading16?_ofWord16 (v : UInt16) (rest : Bytes) :
    leading16? (ofWord16 v ++ rest) = some v :=
  congrArg some (word16_ofWord16 v)

@[simp] theorem leading32?_ofWord32 (v : UInt32) (rest : Bytes) :
    leading32? (ofWord32 v ++ rest) = some v :=
  congrArg some (word32_ofWord32 v)

/-! ### Parts of one width -/

/-- The first `count` parts of `width` octets, after those in `done`, the last of which comes
first. -/
def piecesAfter (width : Nat) : Nat → Bytes → List Bytes → List Bytes
  | 0, _, done => done.reverse
  | count + 1, bytes, done =>
      piecesAfter width count (bytes.drop width) (bytes.take width :: done)

/-- The whole parts of `width` octets, in order.  A shorter tail is left out. -/
def pieces (width : Nat) (bytes : Bytes) : List Bytes :=
  piecesAfter width (bytes.length / width) bytes []

theorem piecesAfter_eq (width count : Nat) (bytes : Bytes) (done : List Bytes) :
    piecesAfter width count bytes done =
      done.reverse ++ piecesAfter width count bytes [] := by
  induction count generalizing bytes done with
  | zero => simp [piecesAfter]
  | succ count ih =>
      rw [piecesAfter, ih, piecesAfter, ih _ [_]]
      simp

theorem pieces_of_le {width : Nat} {bytes : Bytes} (hw : 0 < width)
    (h : width ≤ bytes.length) :
    pieces width bytes = bytes.take width :: pieces width (bytes.drop width) := by
  have e : bytes.length / width = (bytes.drop width).length / width + 1 := by
    rw [List.length_drop, Nat.div_eq bytes.length width, if_pos ⟨hw, h⟩]
  rw [pieces, e, piecesAfter, piecesAfter_eq, pieces]
  rfl

theorem pieces_of_lt {width : Nat} {bytes : Bytes} (h : bytes.length < width) :
    pieces width bytes = [] := by
  rw [pieces, Nat.div_eq_of_lt h]
  rfl

end Bytes
end Whereabouts
