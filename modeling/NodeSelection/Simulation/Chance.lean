import NodeSelection.Random

/-!
The chance of a simulation: a stream of words from a seed. Each move of a caller
takes what it may need, whether it needs it or not, so the chance of a move
depends only on the seed and on how many moves were made before.
-/

namespace NodeSelection

structure Chance where
  state : UInt64
deriving DecidableEq, Repr

namespace Chance

def ofSeed (seed : Nat) : Chance := ⟨seed.toUInt64⟩

/-- States go round by an odd step, so all words come up before one returns. -/
def advance (c : Chance) : Chance := ⟨c.state + 0x9E3779B97F4A7C15⟩

def word (c : Chance) : UInt64 :=
  let a := (c.state ^^^ (c.state >>> 30)) * 0xBF58476D1CE4E5B9
  let b := (a ^^^ (a >>> 27)) * 0x94D049BB133111EB
  b ^^^ (b >>> 31)

def take : Nat → Chance → List UInt64 × Chance
  | 0, c => ([], c)
  | n + 1, c =>
    let others := take n c.advance
    (c.advance.word :: others.1, others.2)

/-- A number from zero up to one, in steps of 2⁻⁵². -/
def fraction (word : UInt64) : Float :=
  (word >>> 12).toFloat * Float.ofBits 0x3CB0000000000000

def wordsPerDraw : Nat := 8

def draw (c : Chance) (candidates : Nat) : Draw × Chance :=
  let taken := c.take wordsPerDraw
  let words := Words.ofList taken.1
  let pair := words.distinctPair candidates
  (⟨pair.1, (pair.2.below candidates).1⟩, taken.2)

def luck (c : Chance) : Float × Chance := (fraction c.advance.word, c.advance)

end Chance

end NodeSelection
