import NodeSelection.Ewma.Stats
import NodeSelection.Node
import NodeSelection.Text.Duration

/-!
A candidate is a node as a balancer sees it: with a weight, and with the time since
it was last picked. The weight of a fixed candidate never changes; an adaptive one
earns its weight through the calls that it serves.
-/

namespace NodeSelection

open Ewma (Stats Tuning)

inductive Candidate where
  | fixed (node : Node) (defaultWeight lastPick : Int)
  | adaptive (node : Node) (tuning : Tuning Float) (stats : Stats Float)

structure Completion where
  latency : Int
  failed : Bool
deriving DecidableEq, Repr

namespace Candidate

def node : Candidate → Node
  | fixed node _ _ => node
  | adaptive node _ _ => node

def address (c : Candidate) : String := c.node.address

instance : Inhabited Candidate := ⟨fixed default 0 0⟩

/-- The stamp of the last pick, zero before the first. -/
def lastPick : Candidate → Int
  | fixed _ _ lastPick => lastPick
  | adaptive _ _ stats => stats.lastPick

def weigh (c : Candidate) (now : Int) : Float × Candidate :=
  match c with
  | fixed node defaultWeight _ => (Scalar.ofInt (node.staticWeight defaultWeight), c)
  | adaptive node tuning stats =>
    let r := stats.weight tuning now
    (r.1, adaptive node tuning r.2)

/-- Picks the candidate. The number is the one under which it knows the call. -/
def pick (c : Candidate) (now : Int) : Candidate × Nat :=
  match c with
  | fixed node defaultWeight _ => (fixed node defaultWeight now, 0)
  | adaptive node tuning stats =>
    let r := stats.start now
    (adaptive node tuning r.1, r.2)

def complete (c : Candidate) (number : Nat) (now : Int) (outcome : Outcome)
    (journal : Journal) : Candidate × Option Completion × Journal :=
  match c with
  | fixed _ _ _ => (c, none, journal)
  | adaptive node tuning stats =>
    let verdict := outcome.isFailure tuning.classifier journal
    let r := stats.finish tuning number now verdict.1
    (adaptive node tuning r.1, some ⟨r.2, verdict.1⟩, verdict.2)

def idle (c : Candidate) (now : Int) : Idle := Idle.since now c.lastPick

def stats? : Candidate → Option (Stats Float)
  | fixed _ _ _ => none
  | adaptive _ _ stats => some stats

def debug? : Candidate → Option String
  | fixed _ _ _ => none
  | adaptive node _ stats =>
    some ("EwmaNode \x7b address: " ++ Quoted.debug node.address ++
      ", lag: " ++ Duration.text stats.lagNanos ++
      ", success: " ++ Numeral.ofNat stats.successRate ++
      ", inflight: " ++ Numeral.ofInt stats.openCount ++ " \x7d")

@[simp]
theorem node_weigh (c : Candidate) (now : Int) : (c.weigh now).2.node = c.node := by
  cases c <;> rfl

@[simp]
theorem node_pick (c : Candidate) (now : Int) : (c.pick now).1.node = c.node := by
  cases c <;> rfl

@[simp]
theorem node_complete (c : Candidate) (number : Nat) (now : Int) (outcome : Outcome)
    (journal : Journal) : (c.complete number now outcome journal).1.node = c.node := by
  cases c <;> rfl

@[simp]
theorem lastPick_pick (c : Candidate) (now : Int) : (c.pick now).1.lastPick = now := by
  cases c <;> rfl

@[simp]
theorem lastPick_weigh (c : Candidate) (now : Int) : (c.weigh now).2.lastPick = c.lastPick := by
  cases c with
  | fixed => rfl
  | adaptive node tuning stats =>
    simp only [weigh, lastPick, Ewma.Stats.weight, Ewma.Stats.load, Ewma.Stats.refresh]
    split <;> rfl

theorem complete_journal (c : Candidate) (number : Nat) (now : Int) (outcome : Outcome)
    (one other : Journal) :
    (c.complete number now outcome one).1 = (c.complete number now outcome other).1 ∧
      (c.complete number now outcome one).2.1 = (c.complete number now outcome other).2.1 := by
  cases c with
  | fixed node defaultWeight lastPick => exact ⟨rfl, rfl⟩
  | adaptive node tuning stats =>
    rw [complete, complete, outcome.isFailure_journal tuning.classifier one other]
    exact ⟨rfl, rfl⟩

@[simp]
theorem lastPick_complete (c : Candidate) (number : Nat) (now : Int) (outcome : Outcome)
    (journal : Journal) : (c.complete number now outcome journal).1.lastPick = c.lastPick := by
  cases c <;> rfl

end Candidate

inductive Wrapping where
  | fixed (defaultWeight : Int)
  | adaptive (tuning : Tuning Float)

def Wrapping.wrap : Wrapping → Node → Candidate
  | fixed defaultWeight, node => .fixed node defaultWeight 0
  | adaptive tuning, node => .adaptive node tuning Stats.fresh

@[simp]
theorem Wrapping.node_wrap (w : Wrapping) (node : Node) : (w.wrap node).node = node := by
  cases w <;> rfl

@[simp]
theorem Wrapping.lastPick_wrap (w : Wrapping) (node : Node) : (w.wrap node).lastPick = 0 := by
  cases w <;> rfl

end NodeSelection
