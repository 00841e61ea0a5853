import NodeSelection.Session

/-!
Selectors by reference. Selectors of one builder share it, and all that they make
stands in one store: a selector names its builder, its balancer and its candidates
by their places there, and an open call names the candidate that serves it, not the
selector that made it. Nothing in the store is ever removed.
-/

namespace NodeSelection

structure Parts where
  builder : Nat
  balancer : Nat
  nodes : List Nat
deriving DecidableEq, Repr

structure Store where
  clock : Clock
  metering : Bool
  builders : List Blueprint
  balancers : List Balancer
  /-- The candidates of all selectors, in force or not. -/
  candidates : Pool
  selectors : List Parts
  /-- Open calls: the candidate that serves it, and its number there. -/
  calls : Calls (Nat × Nat)
  journal : Journal

namespace Store

open Session (Step Answer)

structure Turn where
  store : Store
  answer : Answer
  events : List Event
  metered : Bool

def Turn.observation (t : Turn) : Observation := .ofEvents t.metered t.events

def empty : Store := ⟨Clock.start, true, [], [], .empty, [], Calls.empty, .empty⟩

def addBuilder (s : Store) (b : Blueprint) : Store := { s with builders := s.builders ++ [b] }

/-- Has a builder build a selector, which gets a balancer of its own. -/
def build (s : Store) (builder : Nat) : Store :=
  match s.builders[builder]? with
  | none => s
  | some b =>
    { s with
      balancers := s.balancers ++ [b.balancer]
      selectors := s.selectors ++ [⟨builder, s.balancers.length, []⟩] }

def ofBlueprint (b : Blueprint) : Nat → Store
  | 0 => empty.addBuilder b
  | n + 1 => (ofBlueprint b n).build 0

def now (s : Store) : Int := s.clock.stamp

def selector? (s : Store) (on : Nat) : Option (Parts × Wrapping × Balancer) := do
  let parts ← s.selectors[on]?
  let builder ← s.builders[parts.builder]?
  let balancer ← s.balancers[parts.balancer]?
  return (parts, builder.wrapping, balancer)

private def quiet (s : Store) (answer : Answer) : Turn := ⟨s, answer, [], s.metering⟩

def applyStep (s : Store) (on : Nat) (nodes : List Node) : Turn :=
  match s.selector? on with
  | none => quiet s .noSuchSelector
  | some (parts, wrapping, balancer) =>
    let fresh := wrapping.pool nodes
    let places := fresh.places.map (s.candidates.size + ·)
    ⟨{ s with
        candidates := ⟨s.candidates.candidates ++ fresh.candidates⟩
        selectors := s.selectors.set on { parts with nodes := places } },
      .applied places.length, [.applied balancer.algorithm nodes.length], s.metering⟩

def selectStep (s : Store) (on : Nat) (context : CallContext) (draw : Draw) : Turn :=
  match s.selector? on with
  | none => quiet s .noSuchSelector
  | some (parts, _, balancer) =>
    let refused (e : SelectionError) : Turn :=
      ⟨s, .refused e context, [.noneAvailable balancer.algorithm], s.metering⟩
    match balancer.pick s.candidates parts.nodes s.now draw with
    | .error e => refused e
    | .ok p =>
      match p.pool.get? p.place with
      | none => refused .noAvailableNode
      | some c =>
        ⟨{ s with
            balancers := s.balancers.set parts.balancer p.balancer
            candidates := p.pool
            calls := s.calls.put (p.place, p.number) },
          .selected c.node s.calls.next (context.fill c.node),
          p.events ++ [.selected balancer.algorithm c.address parts.nodes.length], s.metering⟩

def doneStep (s : Store) (call : Nat) (outcome : Outcome) : Turn :=
  match s.calls.get? call with
  | none => quiet s .noSuchCall
  | some (place, number) =>
    let r := s.candidates.complete place number s.now outcome s.journal
    ⟨{ s with candidates := r.1, calls := s.calls.drop call, journal := r.2.2 }, .done,
      r.2.1.toList.map fun c =>
        .finished (s.candidates.address place) c.latency (outcome.failureText? c.failed),
      s.metering⟩

def weightsStep (s : Store) (on : Nat) : Turn :=
  match s.selector? on with
  | none => quiet s .noSuchSelector
  | some (parts, _, _) =>
    let r := s.candidates.weighAll s.now parts.nodes
    quiet { s with candidates := r.2 } (.weights r.1)

def step (s : Store) : Step → Turn
  | .apply on nodes => s.applyStep on nodes
  | .select on context draw => s.selectStep on context draw
  | .done call outcome => s.doneStep call outcome
  | .weights on => s.weightsStep on
  | .setClock value => quiet { s with clock := s.clock.set value } .done
  | .advanceClock offset => quiet { s with clock := s.clock.advance offset } .done
  | .setMetering value => quiet { s with metering := value } .done

def run (s : Store) : List Step → List Turn
  | [] => []
  | first :: rest =>
    let turn := s.step first
    turn :: turn.store.run rest

structure View where
  wrapping : Wrapping
  balancer : Balancer
  pool : Pool

def view? (s : Store) (on : Nat) : Option View :=
  (s.selector? on).map fun (parts, wrapping, balancer) =>
    ⟨wrapping, balancer, ⟨parts.nodes.filterMap s.candidates.get?⟩⟩

end Store

end NodeSelection
