import NodeSelection.Simulation.Callers
import NodeSelection.Simulation.Chance

/-!
A simulation in its own time. The caller that wakes earliest moves next, the one
with the lower number first among equals, and the clock goes to its time of
waking; nobody waits for real.
-/

namespace NodeSelection.Simulation

/-- Of the callers with work left, the one that wakes earliest, with its time. The best one so far
is given, and the number of the first caller in the list. -/
def earliestFrom (best : Option (Nat × Nat)) (index : Nat) : List Caller → Option (Nat × Nat)
  | [] => best
  | c :: rest =>
    let better := match best with
      | some b => c.wake < b.2
      | none => true
    earliestFrom (if !c.idle && better then some (index, c.wake) else best) (index + 1) rest

def nextMove? (s : Simulation) (chance : Chance) : Option (Move × Chance) :=
  (earliestFrom none 0 s.callers).map fun e =>
    let drawn := chance.draw s.selector.pool.size
    let luck := drawn.2.luck
    (⟨e.1, e.2, drawn.1, luck.1⟩, luck.2)

def advance : Nat → Simulation → Chance → Except SelectionError Simulation
  | 0, s, _ => .ok s
  | n + 1, s, chance =>
    match s.nextMove? chance with
    | none => .ok s
    | some (m, after) =>
      match s.step m with
      | .error e => .error e
      | .ok t => advance n t after

def run (s : Simulation) (chance : Chance) : Except SelectionError Simulation :=
  advance s.moves s chance

def duration (s : Simulation) : Nat := (s.callers.map Caller.wake).foldl max 0

theorem exists_follow_of_advance {n : Nat} {s t : Simulation} {chance : Chance}
    (h : advance n s chance = .ok t) : ∃ schedule, s.follow schedule = .ok t := by
  induction n generalizing s chance with
  | zero =>
    refine ⟨[], ?_⟩
    simpa [advance, follow] using h
  | succ n ih =>
    rw [advance] at h
    split at h
    · exact ⟨[], by simpa [follow] using h⟩
    · rename_i m after _
      split at h
      · cases h
      · rename_i u hu
        obtain ⟨schedule, hs⟩ := ih h
        exact ⟨m :: schedule, by simp [follow, hu, hs]⟩

end NodeSelection.Simulation
