import NodeSelection.Toml.Characters

/-!
The four kinds of strings: basic ones, in which a backslash begins an escape, and
literal ones, each on a single line or between triple quotes on several. In the
long forms a line end right after the opening is dropped, every line end becomes a
line feed, and up to two quotes may stand before the closing ones.
-/

namespace NodeSelection.Toml

def hexValue? (c : Char) : Option Nat :=
  if isDigit c then some (c.toNat - 48)
  else if 97 ≤ c.toNat ∧ c.toNat ≤ 102 then some (c.toNat - 87)
  else if 65 ≤ c.toNat ∧ c.toNat ≤ 70 then some (c.toNat - 55)
  else none

def hexNumber? : Nat → Nat → Reader Nat
  | 0, value, cs => some (value, cs)
  | count + 1, value, c :: rest =>
    match hexValue? c with
    | some d => hexNumber? count (value * 16 + d) rest
    | none => none
  | _ + 1, _, [] => none

def scalar? (n : Nat) : Option Char := if n.isValidChar then some (Char.ofNat n) else none

def escape? : Reader Char
  | 'b' :: rest => some ('\x08', rest)
  | 't' :: rest => some ('\t', rest)
  | 'n' :: rest => some ('\n', rest)
  | 'f' :: rest => some ('\x0c', rest)
  | 'r' :: rest => some ('\r', rest)
  | '"' :: rest => some ('"', rest)
  | '\\' :: rest => some ('\\', rest)
  | 'u' :: rest => do
    let (n, rest) ← hexNumber? 4 0 rest
    let c ← scalar? n
    pure (c, rest)
  | 'U' :: rest => do
    let (n, rest) ← hexNumber? 8 0 rest
    let c ← scalar? n
    pure (c, rest)
  | _ => none

/-- Reads on in a basic string up to its closing quote. The number bounds the steps. -/
def basicBody? : Nat → List Char → Reader (List Char)
  | 0, _, _ => none
  | _, _, [] => none
  | bound + 1, done, c :: rest =>
    if c = '"' then some (done.reverse, rest)
    else if c = '\\' then
      match escape? rest with
      | some (e, rest) => basicBody? bound (e :: done) rest
      | none => none
    else if isPrintable c then basicBody? bound (c :: done) rest
    else none

def literalBody? : List Char → Reader (List Char)
  | _, [] => none
  | done, c :: rest =>
    if c = '\'' then some (done.reverse, rest)
    else if isPrintable c then literalBody? (c :: done) rest
    else none

/-- What a row of quotes in a long string means: three of them close it, the one or two before
those belong to the string, and a longer row is wrong. -/
def closing? (row : Nat) : Option (Option Nat) :=
  if row < 3 then some none else if row ≤ 5 then some (some (row - 3)) else none

/-- A backslash before a line end: all blanks and line ends after it are dropped. -/
def foldedLine? (cs : List Char) : Option (List Char) :=
  (newline? (skipSpaces cs)).map fun rest =>
    rest.dropWhile fun c => isSpace c || c = '\n' || c = '\r'

def returnsPaired : List Char → Bool
  | '\r' :: '\n' :: rest => returnsPaired rest
  | '\r' :: _ => false
  | c :: rest => if isSpace c || c = '\n' then returnsPaired rest else true
  | [] => true

def longBody? (quote : Char) (escapes : Bool) : Nat → List Char → Reader (List Char)
  | 0, _, _ => none
  | _, _, [] => none
  | bound + 1, done, c :: rest =>
    if c = quote then
      let row := (rest.takeWhile (· == quote)).length + 1
      let after := rest.dropWhile (· == quote)
      match closing? row with
      | none => none
      | some none => longBody? quote escapes bound (List.replicate row quote ++ done) after
      | some (some kept) => some ((List.replicate kept quote ++ done).reverse, after)
    else if c = '\\' ∧ escapes then
      match foldedLine? rest with
      | some after =>
        if returnsPaired (skipSpaces rest) then longBody? quote escapes bound done after else none
      | none =>
        match escape? rest with
        | some (e, rest) => longBody? quote escapes bound (e :: done) rest
        | none => none
    else
      match newline? (c :: rest) with
      | some after => longBody? quote escapes bound ('\n' :: done) after
      | none => if isPrintable c then longBody? quote escapes bound (c :: done) rest else none

/-- The content of a long string: a line end right after the opening is no part of it. -/
def long? (quote : Char) (escapes : Bool) (cs : List Char) : Option (List Char × List Char) :=
  let content := (newline? cs).getD cs
  longBody? quote escapes (content.length + 1) [] content

def shortString? : Reader String
  | '"' :: rest => (basicBody? (rest.length + 1) [] rest).map fun r => (String.ofList r.1, r.2)
  | '\'' :: rest => (literalBody? [] rest).map fun r => (String.ofList r.1, r.2)
  | _ => none

def string? : Reader String
  | '"' :: '"' :: '"' :: rest => (long? '"' true rest).map fun r => (String.ofList r.1, r.2)
  | '\'' :: '\'' :: '\'' :: rest => (long? '\'' false rest).map fun r => (String.ofList r.1, r.2)
  | cs => shortString? cs

end NodeSelection.Toml
