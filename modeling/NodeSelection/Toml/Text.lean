import NodeSelection.Toml.Moments
import NodeSelection.Toml.Numbers
import NodeSelection.Toml.Strings
import NodeSelection.Toml.Tree

/-!
TOML texts. `parse?` reads a text whole and gives none if any part of it is not
TOML 1.0. The order of a table's entries is the order in which they were first
defined, a table that is taken up by its header counting from there.
-/

namespace NodeSelection.Toml

/-- How deep values may be nested, and how many parts a key may have, less one. -/
def nestingLimit : Nat := 80

/-- The key under which a moment is shown to readers that expect a table. -/
def momentKey : String := "$__toml_private_datetime"

def ofMoment (text : String) : Document := .table [(momentKey, .text text)]

def keyPart? (cs : List Char) : Option (String × List Char) :=
  match cs with
  | '"' :: _ | '\'' :: _ => shortString? cs
  | _ =>
    let bare := cs.takeWhile isBare
    if bare.isEmpty then none else some (String.ofList bare, cs.dropWhile isBare)

def keyParts? : Nat → Reader (List String)
  | 0, _ => none
  | bound + 1, cs => do
    let (part, rest) ← keyPart? (skipSpaces cs)
    match skipSpaces rest with
    | '.' :: rest => do
      let (parts, rest) ← keyParts? bound rest
      pure (part :: parts, rest)
    | rest => pure ([part], rest)

def key? : Reader (List String × String) := fun cs => do
  let (parts, rest) ← keyParts? (nestingLimit - 1) cs
  let name ← parts.getLast?
  pure ((parts.dropLast, name), rest)

def isWordChar (c : Char) : Bool := isBare c || c = '+' || c = '.' || c = ':'

def word? (cs : List Char) : Option (Document × List Char) :=
  if beginsDate cs || beginsTime cs then
    (moment? cs).map fun r => (ofMoment r.1, r.2)
  else
    let word := cs.takeWhile isWordChar
    let rest := cs.dropWhile isWordChar
    if word = ['t', 'r', 'u', 'e'] then some (.boolean true, rest)
    else if word = ['f', 'a', 'l', 's', 'e'] then some (.boolean false, rest)
    else
      match integer? word with
      | some x => some (.integer x, rest)
      | none => if isReal word then some (.real, rest) else none

mutual

/-- Reads a value inside so many others. The number bounds the steps. -/
def value? : Nat → Nat → Reader Document
  | 0, _, _ => none
  | bound + 1, depth, cs =>
    match cs with
    | '"' :: _ | '\'' :: _ => (string? cs).map fun r => (.text r.1, r.2)
    | '[' :: rest =>
      if nestingLimit ≤ depth + 1 then none
      else (arrayItems? bound (depth + 1) rest).map fun r => (.list r.1, r.2)
    | '\x7b' :: rest =>
      if nestingLimit ≤ depth + 1 then none
      else
        match skipSpaces rest with
        | '\x7d' :: rest => some (.table [], rest)
        | rest => (inlineEntries? bound (depth + 1) [] rest).map fun r => (r.1.toDocument, r.2)
    | _ => word? cs

def arrayItems? : Nat → Nat → Reader (List Document)
  | 0, _, _ => none
  | bound + 1, depth, cs =>
    match skipFiller cs with
    | ']' :: rest => some ([], rest)
    | start => do
      let (item, rest) ← value? bound depth start
      match skipFiller rest with
      | ',' :: rest => do
        let (items, rest) ← arrayItems? bound depth rest
        pure (item :: items, rest)
      | ']' :: rest => pure ([item], rest)
      | _ => none

def inlineEntries? : Nat → Nat → Entries → Reader Entries
  | 0, _, _, _ => none
  | bound + 1, depth, es, cs => do
    let ((path, name), rest) ← key? cs
    match rest with
    | '=' :: rest => do
      let (d, rest) ← value? bound depth (skipSpaces rest)
      let es ← Entries.define path name d es
      match skipSpaces rest with
      | ',' :: rest => inlineEntries? bound depth es rest
      | '\x7d' :: rest => pure (es, rest)
      | _ => none
    | _ => none

end

def header? (t : Tree) (cs : List Char) : Option (Tree × List Char) :=
  match cs with
  | '[' :: rest => do
    let ((parents, key), rest) ← key? rest
    match rest with
    | ']' :: ']' :: rest => do
      let t ← t.openElement parents key
      pure (t, rest)
    | _ => none
  | _ => do
    let ((parents, key), rest) ← key? cs
    match rest with
    | ']' :: rest => do
      let t ← t.openTable parents key
      pure (t, rest)
    | _ => none

def definition? (t : Tree) (cs : List Char) : Option (Tree × List Char) := do
  let ((path, key), rest) ← key? cs
  match rest with
  | '=' :: rest => do
    let start := skipSpaces rest
    let (d, rest) ← value? (2 * start.length + 2) 0 start
    let t ← t.define path key d
    pure (t, rest)
  | _ => none

def lines? : Nat → Tree → List Char → Option Tree
  | 0, _, _ => none
  | bound + 1, t, cs =>
    match skipFiller cs with
    | [] => some t
    | '[' :: rest => do
      let (t, rest) ← header? t rest
      let rest ← lineEnd? rest
      lines? bound t rest
    | start => do
      let (t, rest) ← definition? t start
      let rest ← lineEnd? rest
      lines? bound t rest

def withoutMark : List Char → List Char
  | '\ufeff' :: rest => rest
  | cs => cs

def parse? (text : String) : Option Document := do
  let cs := withoutMark text.toList
  let tree ← lines? (cs.length + 1) Tree.empty cs
  tree.toDocument?

end NodeSelection.Toml
