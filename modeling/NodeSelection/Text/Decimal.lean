import NodeSelection.Text.Blank
import NodeSelection.Text.Numeral

/-!
Decimal numbers in text. A number is digits with at most one point among or
around them, perhaps a power of ten after it, and a sign in front; infinity and
"not a number" go by their names. The value is the nearest double.
-/

namespace NodeSelection

structure Decimal where
  significand : Nat
  exponent : Int
deriving DecidableEq, Repr

namespace Decimal

/-- The nearest double. Exponents that no double reaches are told apart first, so the work is
bounded by the length of the significand. -/
def toFloat (d : Decimal) : Float :=
  if d.significand = 0 then 0.0
  else if 400 < d.exponent then 1.0 / 0.0
  else if d.exponent + d.significand.log2 < -400 then 0.0
  else Float.ofScientific d.significand (decide (d.exponent < 0)) d.exponent.natAbs

def digitRun (cs : List Char) : List Char × List Char :=
  cs.span fun c => (Numeral.digit? c).isSome

def exponent? : List Char → Option Int
  | [] => some 0
  | c :: rest => if c = 'e' ∨ c = 'E' then Numeral.int? rest else none

/-- Reads a number without a sign. A point needs a digit on one side only. -/
def ofChars? (cs : List Char) : Option Decimal :=
  let whole := digitRun cs
  let fraction := match whole.2 with
    | '.' :: rest => digitRun rest
    | rest => ([], rest)
  match Numeral.nat? (whole.1 ++ fraction.1), exponent? fraction.2 with
  | some n, some e => some ⟨n, e - fraction.1.length⟩
  | _, _ => none

end Decimal

namespace Binary64

def magnitude? (cs : List Char) : Option Float :=
  let name := Text.lowerAscii (String.ofList cs)
  if name = "inf" ∨ name = "infinity" then some (1.0 / 0.0)
  else if name = "nan" then some (0.0 / 0.0)
  else (Decimal.ofChars? cs).map Decimal.toFloat

def ofText? (s : String) : Option Float :=
  match s.toList with
  | '-' :: rest => (magnitude? rest).map fun x => -x
  | '+' :: rest => magnitude? rest
  | cs => magnitude? cs

end Binary64

end NodeSelection
