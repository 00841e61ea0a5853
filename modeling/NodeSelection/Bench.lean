import NodeSelection.Calls
import NodeSelection.Balancer

/-!
A bench: one balancer over candidates that are laid out once. Picks may be made
among any of them, in any order and with repetitions, and a candidate may also be
picked without the balancer.
-/

namespace NodeSelection

structure Bench where
  clock : Clock
  metering : Bool
  balancer : Balancer
  pool : Pool
  /-- Open calls: the place of the candidate and its number for the call. -/
  calls : Calls (Nat × Nat)
  journal : Journal

namespace Bench

inductive Step where
  | pick (places : List Nat) (draw : Draw)
  | pickPlace (place : Nat)
  | done (call : Nat) (outcome : Outcome)
  | weigh (place : Nat)
  | setForcing (value : Bool)
  | setClock (value : Int)
  | advanceClock (offset : Int)
  | setMetering (value : Bool)

inductive Answer where
  | nothing
  | picked (place call : Nat)
  | refused (error : SelectionError)
  | done
  | noSuchCall
  | weight (value : Float)

structure Turn where
  bench : Bench
  answer : Answer
  events : List Event
  metered : Bool

def Turn.observation (t : Turn) : Observation := .ofEvents t.metered t.events

def layOut (balancer : Balancer) (wrapping : Wrapping) (nodes : List Node) : Bench :=
  ⟨Clock.start, true, balancer, wrapping.pool nodes, Calls.empty, .empty⟩

def now (b : Bench) : Int := b.clock.stamp

private def still (b : Bench) (answer : Answer) : Turn := ⟨b, answer, [], b.metering⟩

def pickStep (b : Bench) (places : List Nat) (draw : Draw) : Turn :=
  match b.balancer.pick b.pool places b.now draw with
  | .error e => still b (.refused e)
  | .ok p =>
    ⟨{ b with balancer := p.balancer, pool := p.pool, calls := b.calls.put (p.place, p.number) },
      .picked p.place b.calls.next, p.events, b.metering⟩

def pickPlaceStep (b : Bench) (place : Nat) : Turn :=
  let r := b.pool.pick place b.now
  still { b with pool := r.1, calls := b.calls.put (place, r.2) } (.picked place b.calls.next)

def doneStep (b : Bench) (call : Nat) (outcome : Outcome) : Turn :=
  match b.calls.get? call with
  | none => still b .noSuchCall
  | some (place, number) =>
    let r := b.pool.complete place number b.now outcome b.journal
    ⟨{ b with pool := r.1, calls := b.calls.drop call, journal := r.2.2 }, .done,
      r.2.1.toList.map fun c =>
        .finished (b.pool.address place) c.latency (outcome.failureText? c.failed),
      b.metering⟩

def weighStep (b : Bench) (place : Nat) : Turn :=
  let r := b.pool.weigh place b.now
  still { b with pool := r.2 } (.weight r.1)

def setForcing : Balancer → Bool → Balancer
  | .twoChoices forceAfter _, value => .twoChoices forceAfter value
  | b, _ => b

def step (b : Bench) : Step → Turn
  | .pick places draw => b.pickStep places draw
  | .pickPlace place => b.pickPlaceStep place
  | .done call outcome => b.doneStep call outcome
  | .weigh place => b.weighStep place
  | .setForcing value => still { b with balancer := setForcing b.balancer value } .nothing
  | .setClock value => still { b with clock := b.clock.set value } .nothing
  | .advanceClock offset => still { b with clock := b.clock.advance offset } .nothing
  | .setMetering value => still { b with metering := value } .nothing

def run (b : Bench) : List Step → List Turn
  | [] => []
  | first :: rest =>
    let turn := b.step first
    turn :: turn.bench.run rest

end Bench

end NodeSelection
