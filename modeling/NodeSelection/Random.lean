import NodeSelection.Word

/-!
Random draws. A pair of distinct indices is two draws below a limit, from whatever
source, the second one shifted past the first. The source that is run here is a
stream of words: a number below a limit is the high half of the product of a word
and the limit, and words whose low half lies in the ragged last part of the range
are passed over.
-/

namespace NodeSelection

/-- Random words in the order in which they are taken. After the last one come zeros. -/
structure Words where
  rest : List UInt64
  taken : Nat
deriving DecidableEq, Repr

namespace Words

def ofList (words : List UInt64) : Words := ⟨words, 0⟩

/-- The greatest low half that is accepted: one less than the greatest product of the limit and a
power of two that fits a word. -/
def zone (limit : Nat) : Nat := limit <<< (63 - limit.log2) - 1

def accept (limit : Nat) (word : UInt64) : Option Nat :=
  let product := word.toNat * limit
  if product % Word.count ≤ zone limit then some (product / Word.count) else none

theorem accept_lt {limit n : Nat} {word : UInt64} (pos : 0 < limit)
    (h : accept limit word = some n) : n < limit := by
  simp only [accept] at h
  split at h
  · cases h
    refine Nat.div_lt_of_lt_mul ?_
    exact Nat.mul_lt_mul_of_pos_right word.toNat_lt pos
  · cases h

/-- Takes words until one is accepted. A zero always is. -/
def belowFrom (limit : Nat) : List UInt64 → Nat → Nat × Words
  | [], taken => (0, ⟨[], taken + 1⟩)
  | word :: rest, taken =>
    match accept limit word with
    | some n => (n, ⟨rest, taken + 1⟩)
    | none => belowFrom limit rest (taken + 1)

def below (w : Words) (limit : Nat) : Nat × Words := belowFrom limit w.rest w.taken

end Words

def pairOfDraws (a b : Nat) : Nat × Nat := (a, if a ≤ b then b + 1 else b)

/-- Two distinct indices below `count`, which has to be at least two. -/
def distinctPair {m : Type → Type} [Monad m] (below : Nat → m Nat) (count : Nat) :
    m (Nat × Nat) := do
  let a ← below count
  let b ← below (count - 1)
  return pairOfDraws a b

def Words.distinctPair (w : Words) (count : Nat) : (Nat × Nat) × Words :=
  (NodeSelection.distinctPair (m := StateM Words) (fun limit v => v.below limit) count).run w

/-- What chance decides in one selection: a pair of places for the choice between two candidates,
a single place for the uniform choice. -/
structure Draw where
  pair : Nat × Nat
  place : Nat
deriving DecidableEq, Repr

instance : Inhabited Draw := ⟨⟨(0, 1), 0⟩⟩

end NodeSelection
