import NodeSelection.Word

/-!
The numbers in which weights and averages are kept. Formulas elsewhere are
written once, over any type with these operations, so that the same definition is
run on floating-point numbers and read over exact ones.
-/

namespace NodeSelection

/-- What an averaging formula needs beyond the four operations. -/
class Scalar (α : Type) where
  ofInt : Int → α
  /-- Drops the fraction and clamps to the signed words; what is no number gives zero. -/
  toInt : α → Int
  exp : α → α
  /-- The least positive number of full precision. -/
  tiny : α

namespace Binary64

/-- The double nearest to a natural number, a tie going to the even one. -/
def ofNat (n : Nat) : Float :=
  if n ≤ Word.maxUnsigned then n.toUInt64.toFloat else Float.ofNat n

def ofInt (x : Int) : Float :=
  if x < 0 then -ofNat x.natAbs else ofNat x.natAbs

def toInt (x : Float) : Int :=
  if x < 0 then max (-((-x).toUInt64.toNat : Int)) Word.minSigned
  else min (x.toUInt64.toNat : Int) Word.maxSigned

/-- Rounds to a whole number, halves away from zero, and clamps to the unsigned words; what lies
below zero or is not a number gives zero. -/
def roundToNat (x : Float) : Nat :=
  let whole := x.toUInt64
  Word.clampUnsigned (if 0.5 ≤ x - whole.toFloat then whole.toNat + 1 else whole.toNat)

def bits (x : Float) : Nat := x.toBits.toNat

end Binary64

instance : Scalar Float where
  ofInt := Binary64.ofInt
  toInt := Binary64.toInt
  exp := Float.exp
  tiny := Float.ofBits 0x0010000000000000

end NodeSelection
