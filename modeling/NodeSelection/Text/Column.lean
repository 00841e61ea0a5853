import NodeSelection.Scalar
import NodeSelection.Text.Numeral

/-!
Columns of a printed table: text filled up with spaces, and numbers with one
place after the point. The number printed is the double as it is, so rounding is
decided by its exact value, and a half goes to the even neighbour.
-/

namespace NodeSelection

/-- The quotient rounded to the nearest whole number, a half going to the even one. -/
def roundDiv (numerator denominator : Nat) : Nat :=
  let low := numerator / denominator
  let twice := 2 * (numerator % denominator)
  if twice < denominator then low
  else if denominator < twice then low + 1
  else low + low % 2

namespace Binary64

def leading : Nat := 4503599627370496

/-- The whole number and the power of two of which a finite double, its sign apart, is the
product. -/
def parts (x : Float) : Nat × Int :=
  let field : Nat := bits x / leading % 2048
  let fraction : Nat := bits x % leading
  if field = 0 then (fraction, -1074) else (fraction + leading, (field : Int) - 1075)

def tenths (x : Float) : Nat :=
  let p := parts x
  if 0 ≤ p.2 then (p.1 * 10) <<< p.2.toNat else roundDiv (p.1 * 10) (1 <<< p.2.natAbs)

def onePlace (x : Float) : String :=
  let whole := Numeral.ofNat (tenths x / 10) ++ "." ++ Numeral.ofNat (tenths x % 10)
  if bits x / leading < 2048 then whole else "-" ++ whole

end Binary64

namespace Column

def spaces (count : Nat) : String := String.ofList (List.replicate count ' ')

def left (width : Nat) (s : String) : String := s ++ spaces (width - s.length)

def right (width : Nat) (s : String) : String := spaces (width - s.length) ++ s

end Column

end NodeSelection
