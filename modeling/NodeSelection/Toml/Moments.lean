import NodeSelection.Text.Numeral
import NodeSelection.Toml.Characters

/-!
Dates and times. The text of one is written anew from its parts: `T` between date
and time, at most nine digits of a second without trailing zeros, and `Z` or a
signed offset at the end.
-/

namespace NodeSelection.Toml

def digitsOf? (count : Nat) (cs : List Char) : Option (Nat × List Char) :=
  let ds := cs.take count
  if ds.length = count ∧ ds.all isDigit then
    (Numeral.nat? ds).map fun n => (n, cs.drop count)
  else none

def part? (count least greatest : Nat) (cs : List Char) : Option (Nat × List Char) :=
  match digitsOf? count cs with
  | some (n, rest) => if least ≤ n ∧ n ≤ greatest then some (n, rest) else none
  | none => none

def mark? (c : Char) : List Char → Option (List Char)
  | d :: rest => if d = c then some rest else none
  | [] => none

def isLeapYear (year : Nat) : Bool :=
  year % 4 = 0 ∧ (year % 100 ≠ 0 ∨ year % 400 = 0)

def daysInMonth (year month : Nat) : Nat :=
  if month = 2 then (if isLeapYear year then 29 else 28)
  else if month = 4 ∨ month = 6 ∨ month = 9 ∨ month = 11 then 30
  else 31

def padded (width n : Nat) : String :=
  let ds := Numeral.digits n
  String.ofList (List.replicate (width - ds.length) '0' ++ ds)

def date? : Reader String := fun cs => do
  let (year, cs) ← part? 4 0 9999 cs
  let cs ← mark? '-' cs
  let (month, cs) ← part? 2 1 12 cs
  let cs ← mark? '-' cs
  let (day, cs) ← part? 2 1 (daysInMonth year month) cs
  pure (padded 4 year ++ "-" ++ padded 2 month ++ "-" ++ padded 2 day, cs)

/-- Reads the fraction of a second, if there is one. Digits beyond the ninth do not count. -/
def fraction? : Reader String
  | '.' :: rest =>
    let ds := rest.takeWhile isDigit
    if ds.isEmpty then none
    else
      let kept := ((ds.take 9).reverse.dropWhile (· == '0')).reverse
      some (if kept.isEmpty then "" else "." ++ String.ofList kept, rest.dropWhile isDigit)
  | cs => some ("", cs)

def time? : Reader String := fun cs => do
  let (hour, cs) ← part? 2 0 23 cs
  let cs ← mark? ':' cs
  let (minute, cs) ← part? 2 0 59 cs
  let cs ← mark? ':' cs
  let (second, cs) ← part? 2 0 60 cs
  let (fraction, cs) ← fraction? cs
  pure (padded 2 hour ++ ":" ++ padded 2 minute ++ ":" ++ padded 2 second ++ fraction, cs)

/-- Reads the offset of a time, if there is one. No offset is negative by no minutes. -/
def offset? : Reader String
  | [] => some ("", [])
  | c :: rest =>
    if c = 'Z' ∨ c = 'z' then some ("Z", rest)
    else if c = '+' ∨ c = '-' then do
      let (hour, cs) ← part? 2 0 23 rest
      let cs ← mark? ':' cs
      let (minute, cs) ← part? 2 0 59 cs
      let minus := c = '-' ∧ 0 < hour + minute
      pure ((if minus then "-" else "+") ++ padded 2 hour ++ ":" ++ padded 2 minute, cs)
    else some ("", c :: rest)

def timeAfterDate? (date : String) : Reader String := fun cs => do
  let (time, cs) ← time? cs
  let (offset, cs) ← offset? cs
  pure (date ++ "T" ++ time ++ offset, cs)

def beginsTime : List Char → Bool
  | a :: b :: ':' :: _ => isDigit a && isDigit b
  | _ => false

def beginsDate : List Char → Bool
  | a :: b :: c :: d :: '-' :: _ => isDigit a && isDigit b && isDigit c && isDigit d
  | _ => false

def moment? : Reader String := fun cs =>
  if beginsDate cs then
    match date? cs with
    | none => none
    | some (date, 'T' :: rest) => timeAfterDate? date rest
    | some (date, 't' :: rest) => timeAfterDate? date rest
    | some (date, ' ' :: rest) =>
      if beginsTime rest then timeAfterDate? date rest else some (date, ' ' :: rest)
    | some (date, rest) => some (date, rest)
  else time? cs

end NodeSelection.Toml
