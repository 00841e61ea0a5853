import NodeSelection.Text.Numeral
import NodeSelection.Toml.Characters

/-!
Numbers. Integers are decimal, without leading zeros, or hexadecimal, octal or
binary, and fit a signed word; a number with a fraction or an exponent is real, and
too large if it would be rounded to infinity. Underscores may stand between digits.
-/

namespace NodeSelection.Toml

/-- Takes the underscores out of a row of digits; each has to stand between two digits. -/
def ungrouped? (valid : Char → Bool) : List Char → Option (List Char)
  | [] => none
  | [c] => if valid c then some [c] else none
  | c :: '_' :: rest => if valid c then (ungrouped? valid rest).map (c :: ·) else none
  | c :: rest => if valid c then (ungrouped? valid rest).map (c :: ·) else none

def digitValue (c : Char) : Nat :=
  if isDigit c then c.toNat - 48 else if c.toNat < 97 then c.toNat - 55 else c.toNat - 87

def valueIn (base : Nat) (digits : List Char) : Nat :=
  digits.foldl (fun value c => value * base + digitValue c) 0

def isHexDigit (c : Char) : Bool :=
  isDigit c || (97 ≤ c.toNat && c.toNat ≤ 102) || (65 ≤ c.toNat && c.toNat ≤ 70)

def isOctalDigit (c : Char) : Bool := 48 ≤ c.toNat ∧ c.toNat ≤ 55

def isBinaryDigit (c : Char) : Bool := c = '0' ∨ c = '1'

def sign : List Char → Bool × List Char
  | '-' :: rest => (true, rest)
  | '+' :: rest => (false, rest)
  | cs => (false, cs)

def plainDigits? (cs : List Char) : Option (List Char) :=
  match ungrouped? isDigit cs with
  | some ('0' :: _ :: _) => none
  | digits => digits

def fits (x : Int) : Option Int :=
  if Word.minSigned ≤ x ∧ x ≤ Word.maxSigned then some x else none

def integer? (cs : List Char) : Option Int :=
  match cs with
  | '0' :: 'x' :: rest => (ungrouped? isHexDigit rest).bind fun ds => fits (valueIn 16 ds)
  | '0' :: 'o' :: rest => (ungrouped? isOctalDigit rest).bind fun ds => fits (valueIn 8 ds)
  | '0' :: 'b' :: rest => (ungrouped? isBinaryDigit rest).bind fun ds => fits (valueIn 2 ds)
  | _ =>
    let signed := sign cs
    (plainDigits? signed.2).bind fun ds =>
      fits (if signed.1 then -(valueIn 10 ds : Int) else valueIn 10 ds)

/-- The least number that is rounded to infinity: the greatest finite one and half a step more. -/
def overflowBound : Nat := 1 <<< 1024 - 1 <<< 970

def isFinite (digits : List Char) (exponent : Int) : Bool :=
  let significant := digits.dropWhile (· == '0')
  let value := valueIn 10 significant
  let top := (significant.length : Int) + exponent
  if value = 0 ∨ top ≤ 308 then true
  else if 309 < top then false
  else if 0 ≤ exponent then value * Nat.pow 10 exponent.toNat < overflowBound
  else value < overflowBound * Nat.pow 10 (-exponent).toNat

def isExponentMark (c : Char) : Bool := c = 'e' ∨ c = 'E'

def exponent? (cs : List Char) : Option Int :=
  let signed := sign cs
  (ungrouped? isDigit signed.2).map fun ds =>
    if signed.1 then -(valueIn 10 ds : Int) else valueIn 10 ds

/-- Reads the parts of a real number: the digits without the point, and the power of ten. -/
def realParts? (cs : List Char) : Option (List Char × Int) :=
  let mantissa := cs.takeWhile fun c => !isExponentMark c
  let whole := mantissa.takeWhile (· != '.')
  match plainDigits? whole, mantissa.dropWhile (· != '.'), cs.dropWhile (!isExponentMark ·) with
  | some digits, [], _ :: power => (exponent? power).map fun e => (digits, e)
  | some digits, _ :: fraction, [] =>
    (ungrouped? isDigit fraction).map fun f => (digits ++ f, -(f.length : Int))
  | some digits, _ :: fraction, _ :: power =>
    (ungrouped? isDigit fraction).bind fun f =>
      (exponent? power).map fun e => (digits ++ f, e - f.length)
  | _, _, _ => none

def isReal (cs : List Char) : Bool :=
  let signed := sign cs
  if signed.2 = ['i', 'n', 'f'] ∨ signed.2 = ['n', 'a', 'n'] then true
  else
    match realParts? signed.2 with
    | some (digits, exponent) => signed.1 || isFinite digits exponent
    | none => false

end NodeSelection.Toml
