import NodeSelection.Balancer

/-!
Selectors. A selector holds the candidates of the last node set that was applied
to it and a balancer that outlives them. Candidates of earlier sets are kept for
the calls that are still open on them; nothing else reads them.
-/

namespace NodeSelection

/-- The remote end of a call, filled in when a node is selected. -/
structure Peer where
  node : Option Node

structure CallContext where
  peer : Option Peer

namespace CallContext

def empty : CallContext := ⟨none⟩

def withPeer : CallContext := ⟨some ⟨none⟩⟩

def fill (c : CallContext) (node : Node) : CallContext := ⟨c.peer.map fun _ => ⟨some node⟩⟩

def peerNode? (c : CallContext) : Option Node := c.peer.bind Peer.node

end CallContext

structure Selector where
  wrapping : Wrapping
  balancer : Balancer
  /-- The candidates of superseded node sets, oldest first. -/
  past : List Pool
  pool : Pool

/-- Where to report the end of a call: a node set, a place in it, and the number under which the
candidate there knows the call. -/
structure Ticket where
  generation : Nat
  place : Nat
  number : Nat
deriving DecidableEq, Repr

structure Selection where
  selector : Selector
  context : CallContext
  result : Except SelectionError (Node × Ticket)
  events : List Event

structure Ending where
  selector : Selector
  completion : Option Completion
  events : List Event
  journal : Journal

namespace Selector

def new (wrapping : Wrapping) (balancer : Balancer) : Selector := ⟨wrapping, balancer, [], .empty⟩

instance : Inhabited Selector := ⟨new (.fixed 0) .uniform⟩

def generation (s : Selector) : Nat := s.past.length

def algorithm (s : Selector) : Algorithm := s.balancer.algorithm

/-- Puts a new node set in force. All its candidates are fresh, also those whose address was there
before. -/
def apply (s : Selector) (nodes : List Node) : Selector × List Event :=
  ({ s with past := s.past ++ [s.pool], pool := s.wrapping.pool nodes },
    [.applied s.algorithm nodes.length])

def select (s : Selector) (context : CallContext) (now : Int) (draw : Draw) : Selection :=
  match s.balancer.pick s.pool s.pool.places now draw with
  | .error e => ⟨s, context, .error e, [.noneAvailable s.algorithm]⟩
  | .ok p =>
    match p.pool.get? p.place with
    | none => ⟨s, context, .error .noAvailableNode, [.noneAvailable s.algorithm]⟩
    | some c =>
      { selector := { s with balancer := p.balancer, pool := p.pool }
        context := context.fill c.node
        result := .ok (c.node, ⟨s.generation, p.place, p.number⟩)
        events := p.events ++ [.selected s.algorithm c.address p.pool.size] }

def generationPool? (s : Selector) (generation : Nat) : Option Pool :=
  if generation = s.generation then some s.pool else s.past[generation]?

def setGenerationPool (s : Selector) (generation : Nat) (pool : Pool) : Selector :=
  if generation = s.generation then { s with pool := pool }
  else { s with past := s.past.set generation pool }

def complete (s : Selector) (ticket : Ticket) (now : Int) (outcome : Outcome)
    (journal : Journal) : Ending :=
  match s.generationPool? ticket.generation with
  | none => ⟨s, none, [], journal⟩
  | some pool =>
    let r := pool.complete ticket.place ticket.number now outcome journal
    { selector := s.setGenerationPool ticket.generation r.1
      completion := r.2.1
      events := r.2.1.toList.map fun c =>
        .finished (pool.address ticket.place) c.latency (outcome.failureText? c.failed)
      journal := r.2.2 }

theorem complete_journal (s : Selector) (ticket : Ticket) (now : Int) (outcome : Outcome)
    (one other : Journal) :
    (s.complete ticket now outcome one).selector = (s.complete ticket now outcome other).selector ∧
      (s.complete ticket now outcome one).events = (s.complete ticket now outcome other).events := by
  rw [complete, complete]
  cases s.generationPool? ticket.generation with
  | none => exact ⟨rfl, rfl⟩
  | some pool =>
    obtain ⟨same, told⟩ := pool.complete_journal ticket.place ticket.number now outcome one other
    dsimp only
    rw [same, told]
    exact ⟨rfl, rfl⟩

def weights (s : Selector) (now : Int) : List Float × Selector :=
  let r := s.pool.weighAll now s.pool.places
  (r.1, { s with pool := r.2 })

end Selector

/-- A recipe for selectors that are alike and know nothing of each other. -/
structure Blueprint where
  wrapping : Wrapping
  balancer : Balancer

namespace Blueprint

def build (b : Blueprint) : Selector := .new b.wrapping b.balancer

def algorithm (b : Blueprint) : Algorithm := b.balancer.algorithm

end Blueprint

end NodeSelection
