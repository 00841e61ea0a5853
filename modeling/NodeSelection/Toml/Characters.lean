/-!
The character classes of TOML and the ways to pass over what means nothing: blanks,
line ends and comments. A reader takes what it understands off the front of the
characters and fails where they are not TOML.
-/

namespace NodeSelection.Toml

/-- A reader takes a value off the front of the characters. -/
abbrev Reader (α : Type) := List Char → Option (α × List Char)

def isSpace (c : Char) : Bool := c = ' ' ∨ c = '\t'

def isDigit (c : Char) : Bool := 48 ≤ c.toNat ∧ c.toNat ≤ 57

def isLetter (c : Char) : Bool :=
  (65 ≤ c.toNat ∧ c.toNat ≤ 90) ∨ (97 ≤ c.toNat ∧ c.toNat ≤ 122)

def isBare (c : Char) : Bool := isDigit c || isLetter c || c = '-' || c = '_'

/-- What may stand in a comment or between quotes: everything but controls, of which only the
tabulator is allowed. -/
def isPrintable (c : Char) : Bool := c = '\t' ∨ (32 ≤ c.toNat ∧ c.toNat ≠ 127)

def newline? : List Char → Option (List Char)
  | '\n' :: rest => some rest
  | '\r' :: '\n' :: rest => some rest
  | _ => none

def skipSpaces (cs : List Char) : List Char := cs.dropWhile isSpace

def skipComment : List Char → List Char
  | '#' :: rest => rest.dropWhile isPrintable
  | cs => cs

/-- What is left of a line after its content: blanks, a comment, and the line end or the end of
the text. -/
def lineEnd? (cs : List Char) : Option (List Char) :=
  match skipComment (skipSpaces cs) with
  | [] => some []
  | rest => newline? rest

/-- Passes over blanks, line ends and comments. The number bounds how many lines are passed. -/
def skipLines : Nat → List Char → List Char
  | 0, cs => cs
  | bound + 1, cs =>
    let rest := skipComment (skipSpaces cs)
    match newline? rest with
    | some next => skipLines bound next
    | none => rest

def skipFiller (cs : List Char) : List Char := skipLines cs.length cs

end NodeSelection.Toml
