import Mathlib
import NodeSelection.Random

/-! Pairs of distinct indices. The second of two draws skips the first, so that the draws and the
ordered pairs of distinct indices are in bijection: no pair is out of reach, and none is reached by
two draws. Nothing is asked of the source but that what it returns lies below the limit. -/

namespace NodeSelection

def pairDraws (count : Nat) : Set (Nat × Nat) := {d | d.1 < count ∧ d.2 < count - 1}

def distinctPairs (count : Nat) : Set (Nat × Nat) := {p | p.1 < count ∧ p.2 < count ∧ p.1 ≠ p.2}

/-- The draws behind a pair: indices past the first one move down by one. -/
def drawsOfPair (p : Nat × Nat) : Nat × Nat := (p.1, if p.1 < p.2 then p.2 - 1 else p.2)

theorem drawsOfPair_pairOfDraws (a b : Nat) : drawsOfPair (pairOfDraws a b) = (a, b) := by
  rw [pairOfDraws, drawsOfPair]
  by_cases past : a ≤ b
  · rw [if_pos past, if_pos (Nat.lt_succ_of_le past), Nat.add_sub_cancel]
  · rw [if_neg past, if_neg (by omega)]

theorem pairOfDraws_drawsOfPair {p : Nat × Nat} (distinct : p.1 ≠ p.2) :
    pairOfDraws (drawsOfPair p).1 (drawsOfPair p).2 = p := by
  rw [drawsOfPair, pairOfDraws]
  refine Prod.ext rfl ?_
  dsimp only
  split <;> split <;> omega

theorem pairOfDraws_mem {count a b : Nat} (first : a < count) (second : b < count - 1) :
    pairOfDraws a b ∈ distinctPairs count := by
  rw [pairOfDraws]
  refine ⟨first, ?_, ?_⟩ <;> dsimp only <;> split <;> omega

theorem drawsOfPair_mem {count : Nat} {p : Nat × Nat} (pair : p ∈ distinctPairs count) :
    drawsOfPair p ∈ pairDraws count := by
  obtain ⟨first, second, distinct⟩ := pair
  refine ⟨first, ?_⟩
  rw [drawsOfPair]
  dsimp only
  split <;> omega

theorem pairOfDraws_bijOn (count : Nat) :
    Set.BijOn (fun d => pairOfDraws d.1 d.2) (pairDraws count) (distinctPairs count) := by
  have inverse : Set.InvOn drawsOfPair (fun d => pairOfDraws d.1 d.2) (pairDraws count)
      (distinctPairs count) :=
    ⟨fun d _ => drawsOfPair_pairOfDraws d.1 d.2, fun p pair => pairOfDraws_drawsOfPair pair.2.2⟩
  exact inverse.bijOn (fun d drawn => pairOfDraws_mem drawn.1 drawn.2)
    fun p pair => drawsOfPair_mem pair

section
variable {σ : Type} {below : Nat → StateT σ Option Nat}

theorem distinctPair_run (count : Nat) (s : σ) :
    (distinctPair below count).run s =
      ((below count).run s).bind fun first =>
        ((below (count - 1)).run first.2).map fun second =>
          (pairOfDraws first.1 second.1, second.2) := by
  rw [distinctPair, StateT.run_bind]
  refine congrArg (Option.bind _) (funext fun first => ?_)
  rw [StateT.run_bind]
  cases (below (count - 1)).run first.2 <;> rfl

theorem distinctPair_eq_some_iff
    (small : ∀ limit s n t, 0 < limit → (below limit).run s = some (n, t) → n < limit)
    {count : Nat} (two : 2 ≤ count) {s u : σ} {p : Nat × Nat} :
    (distinctPair below count).run s = some (p, u) ↔
      p ∈ distinctPairs count ∧ ∃ t, (below count).run s = some ((drawsOfPair p).1, t) ∧
        (below (count - 1)).run t = some ((drawsOfPair p).2, u) := by
  rw [distinctPair_run, Option.bind_eq_some_iff]
  constructor
  · rintro ⟨⟨a, t⟩, first, rest⟩
    obtain ⟨⟨b, v⟩, second, same⟩ := Option.map_eq_some_iff.1 rest
    obtain ⟨rfl, rfl⟩ := Prod.mk.inj same
    have inside := small _ _ _ _ (Nat.zero_lt_of_lt two) first
    have left := small _ _ _ _ (Nat.sub_pos_of_lt two) second
    rw [drawsOfPair_pairOfDraws]
    exact ⟨pairOfDraws_mem inside left, t, first, second⟩
  · rintro ⟨pair, t, first, second⟩
    refine ⟨_, first, ?_⟩
    dsimp only
    rw [second, Option.map_some, pairOfDraws_drawsOfPair pair.2.2]

/-- Whenever both draws return, they give two distinct indices below the count. A pair comes of one
pair of draws and no other, and every pair of draws gives one. -/
theorem distinctPair_fair
    (small : ∀ limit s n t, 0 < limit → (below limit).run s = some (n, t) → n < limit)
    {count : Nat} (two : 2 ≤ count) :
    (∀ s a t b u, (below count).run s = some (a, t) → (below (count - 1)).run t = some (b, u) →
      ∃ p ∈ distinctPairs count, (distinctPair below count).run s = some (p, u) ∧
        p = pairOfDraws a b) ∧
      (∀ s p u, (distinctPair below count).run s = some (p, u) ↔
        p ∈ distinctPairs count ∧ ∃ t, (below count).run s = some ((drawsOfPair p).1, t) ∧
          (below (count - 1)).run t = some ((drawsOfPair p).2, u)) ∧
      Set.BijOn (fun d => pairOfDraws d.1 d.2) (pairDraws count) (distinctPairs count) := by
  refine ⟨fun s a t b u first second => ⟨pairOfDraws a b, ?_, ?_, rfl⟩,
    fun s p u => distinctPair_eq_some_iff small two, pairOfDraws_bijOn count⟩
  · exact pairOfDraws_mem (small _ _ _ _ (Nat.zero_lt_of_lt two) first)
      (small _ _ _ _ (Nat.sub_pos_of_lt two) second)
  · rw [distinctPair_run, first, Option.bind_some, second, Option.map_some]

end

namespace Words

theorem belowFrom_lt {limit : Nat} (pos : 0 < limit) (words : List UInt64) (taken : Nat) :
    (belowFrom limit words taken).1 < limit := by
  induction words generalizing taken with
  | nil => exact pos
  | cons word rest ih =>
    rw [belowFrom]
    cases accepted : accept limit word with
    | some n => exact accept_lt pos accepted
    | none => exact ih (taken + 1)

theorem below_lt {limit : Nat} (pos : 0 < limit) (w : Words) : (w.below limit).1 < limit :=
  belowFrom_lt pos w.rest w.taken

/-- Of three indices the second draw meets the first one and is moved past it. -/
theorem distinctPair_fair_three :
    let below (limit : Nat) : StateT Words Option Nat := fun w => some (w.below limit)
    let halves := ofList [0x8000000000000000, 0x8000000000000000]
    (∀ limit s n t, 0 < limit → (below limit).run s = some (n, t) → n < limit) ∧ 2 ≤ 3 ∧
      (NodeSelection.distinctPair below 3).run halves = some ((1, 2), ⟨[], 2⟩) ∧
      (1, 2) ∈ distinctPairs 3 := by
  intro below halves
  have small : ∀ limit s n t, 0 < limit → (below limit).run s = some (n, t) → n < limit := by
    intro limit s n t pos drawn
    have lt := below_lt pos s
    rw [Option.some.inj drawn] at lt
    exact lt
  obtain ⟨p, pair, drawn, same⟩ := (distinctPair_fair small (show 2 ≤ 3 by decide)).1 halves 1
    ⟨[0x8000000000000000], 1⟩ 1 ⟨[], 2⟩ rfl rfl
  cases same
  exact ⟨small, by decide, drawn, pair⟩

end Words
end NodeSelection
