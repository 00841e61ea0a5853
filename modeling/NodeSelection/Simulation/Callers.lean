import NodeSelection.Selector
import NodeSelection.Simulation.Profile
import NodeSelection.Simulation.Report

/-!
Callers that share a selector. The requests are divided among them as evenly as
can be; each caller makes its calls one after another, and a call is two moves,
the selection of a node and the completion. Which caller moves when is left open:
`Simulation.follow` makes the moves of any schedule.
-/

namespace NodeSelection

/-- The share of the caller with a number in all requests. The first callers take what is left
over. -/
def quota (requests callers index : Nat) : Nat :=
  requests / callers + if index < requests % callers then 1 else 0

structure Underway where
  node : Node
  ticket : Ticket

structure Caller where
  remaining : Nat
  underway : Option Underway
  /-- When the caller moves again, in nanoseconds. -/
  wake : Nat
  report : Report

namespace Caller

def ofQuota (calls : Nat) : Caller := ⟨calls, none, 0, .empty⟩

def idle (c : Caller) : Bool := c.remaining == 0 && c.underway.isNone

def moves (c : Caller) : Nat := 2 * c.remaining + if c.underway.isSome then 1 else 0

theorem idle_iff {c : Caller} : c.idle ↔ c.moves = 0 := by
  obtain ⟨remaining, underway, wake, report⟩ := c
  cases underway with
  | none =>
    simp only [idle, moves, Option.isNone_none, Option.isSome_none, Bool.and_true, beq_iff_eq,
      Bool.false_eq_true, if_false]
    omega
  | some u => simp [idle, moves]

end Caller

/-- A move: who makes it and when, and what chance has in store for it. -/
structure Move where
  caller : Nat
  /-- Nanoseconds since the start. -/
  time : Nat
  draw : Draw
  luck : Float

def Move.now (m : Move) : Int := (Clock.start.set m.time).stamp

structure Simulation where
  selector : Selector
  callers : List Caller

namespace Simulation

/-- Callers with a quota each; there is at least one caller. -/
def start (selector : Selector) (requests concurrency : Nat) : Simulation :=
  let callers := max concurrency 1
  ⟨selector, (List.range callers).map fun i => .ofQuota (quota requests callers i)⟩

def outcome (node : Node) (failed : Bool) : Outcome :=
  if failed then .failed (.serviceUnavailable node.address)
  else { error := none, replyMetadata := none, bytesSent := true, bytesReceived := true }

def begin (s : Simulation) (m : Move) (c : Caller) : Except SelectionError Simulation :=
  let r := s.selector.select .withPeer m.now m.draw
  match r.result with
  | .error e => .error e
  | .ok (node, ticket) =>
    let begun : Caller :=
      { c with
        remaining := c.remaining - 1
        underway := some ⟨node, ticket⟩
        wake := m.time + (Profile.ofNode node).latencyMs * nanosPerMilli }
    .ok ⟨r.selector, s.callers.set m.caller begun⟩

def complete (s : Simulation) (m : Move) (c : Caller) (u : Underway) : Simulation :=
  let failed := (Profile.ofNode u.node).fails m.luck
  let completed : Caller :=
    { c with underway := none, report := c.report.count u.node.address failed }
  -- Nobody reads the journal of a simulation.
  ⟨(s.selector.complete u.ticket m.now (outcome u.node failed) .empty).selector,
    s.callers.set m.caller completed⟩

/-- Makes a move. A caller that is done, or does not exist, changes nothing. -/
def step (s : Simulation) (m : Move) : Except SelectionError Simulation :=
  match s.callers[m.caller]? with
  | none => .ok s
  | some c =>
    match c.underway with
    | some u => .ok (s.complete m c u)
    | none => if c.remaining = 0 then .ok s else s.begin m c

def follow (s : Simulation) : List Move → Except SelectionError Simulation
  | [] => .ok s
  | m :: rest =>
    match s.step m with
    | .error e => .error e
    | .ok t => t.follow rest

def moves (s : Simulation) : Nat := s.callers.foldr (fun c n => c.moves + n) 0

def finished (s : Simulation) : Bool := s.callers.all Caller.idle

def report (s : Simulation) : Report := .mergeAll (s.callers.map Caller.report)

end Simulation

end NodeSelection
