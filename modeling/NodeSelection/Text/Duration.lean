import NodeSelection.Text.Numeral

/-!
The text of a duration: the largest unit that is not below one, the exact
fraction without trailing zeros, and the unit's name. Nothing is `0ns`.
-/

namespace NodeSelection.Duration

def fraction (n places : Nat) : List Char :=
  let written := Numeral.digits n
  let padded := List.replicate (places - written.length) '0' ++ written
  (padded.reverse.dropWhile (· == '0')).reverse

/-- A count of nanoseconds in a unit of that many, a power of ten with `places` zeros. -/
def inUnit (nanos unit places : Nat) (name : String) : String :=
  let whole := Numeral.ofNat (nanos / unit)
  match fraction (nanos % unit) places with
  | [] => whole ++ name
  | cs => whole ++ "." ++ String.ofList cs ++ name

def text (nanos : Nat) : String :=
  if 1000000000 ≤ nanos then inUnit nanos 1000000000 9 "s"
  else if 1000000 ≤ nanos then inUnit nanos 1000000 6 "ms"
  else if 1000 ≤ nanos then inUnit nanos 1000 3 "µs"
  else inUnit nanos 1 0 "ns"

end NodeSelection.Duration
