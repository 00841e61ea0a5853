import NodeSelection.Event
import NodeSelection.Pool
import NodeSelection.Random
import NodeSelection.Rotation

/-!
Balancers. A pick is made among the candidates at some places of a pool, given in
an order and perhaps with repetitions. It comes in two steps: a choice, which only
asks for weights, and the registration of the call with the candidate chosen.
-/

namespace NodeSelection

def defaultForceAfter : Nat := 3000000000

inductive Balancer where
  /-- The flag is up while a candidate is being forced, which keeps everybody else from it. -/
  | twoChoices (forceAfter : Nat) (forcing : Bool)
  | rotation (state : Rotation Float)
  | uniform

structure Choice where
  balancer : Balancer
  pool : Pool
  place : Nat
  events : List Event

/-- A choice after the call was registered under a number of the candidate's own. -/
structure Pick where
  balancer : Balancer
  pool : Pool
  place : Nat
  number : Nat
  events : List Event

namespace Balancer

def algorithm : Balancer → Algorithm
  | twoChoices _ _ => .twoChoices
  | rotation _ => .rotation
  | uniform => .uniform

/-- What a list holds at an index, its first element standing in for what lies outside. -/
def atOr (first : Nat) (rest : List Nat) (index : Nat) : Nat :=
  ((first :: rest)[index]?).getD first

structure Duel where
  preferred : Nat
  other : Nat
  pool : Pool

/-- The second place wins only by a strictly greater weight. -/
def duel (pool : Pool) (a b : Nat) (now : Int) : Duel :=
  let second := pool.weigh b now
  let first := second.2.weigh a now
  if first.1 < second.1 then ⟨b, a, first.2⟩ else ⟨a, b, first.2⟩

def starved (forceAfter : Nat) (forcing : Bool) (idle : Idle) : Bool :=
  idle.exceeds forceAfter && !forcing

/-- The choice between two places. The flag goes up and comes down again within it. -/
def chooseOfTwo (forceAfter : Nat) (forcing : Bool) (pool : Pool) (a b : Nat) (now : Int) :
    Choice :=
  let d := duel pool a b now
  let idle := d.pool.idle d.other now
  if starved forceAfter forcing idle then
    ⟨twoChoices forceAfter forcing, d.pool, d.other, [.forced (d.pool.address d.other) idle]⟩
  else ⟨twoChoices forceAfter forcing, d.pool, d.preferred, []⟩

def chooseByRotation (state : Rotation Float) (pool : Pool) (first : Nat) (rest : List Nat)
    (now : Int) : Choice :=
  let places := first :: rest
  let weighed := pool.weighAll now places
  let turn := state.pick ((places.map pool.address).zip weighed.1)
  ⟨rotation turn.1, weighed.2, atOr first rest (turn.2.getD 0), []⟩

def choose (b : Balancer) (pool : Pool) (places : List Nat) (now : Int) (draw : Draw) :
    Option Choice :=
  match places with
  | [] => none
  | first :: rest =>
    match b with
    | twoChoices forceAfter forcing =>
      if rest.isEmpty then some ⟨b, pool, first, []⟩
      else
        some (chooseOfTwo forceAfter forcing pool (atOr first rest draw.pair.1)
          (atOr first rest draw.pair.2) now)
    | rotation state => some (chooseByRotation state pool first rest now)
    | uniform => some ⟨b, pool, atOr first rest draw.place, []⟩

def register (c : Choice) (now : Int) : Pick :=
  let r := c.pool.pick c.place now
  ⟨c.balancer, r.1, c.place, r.2, c.events⟩

def pick (b : Balancer) (pool : Pool) (places : List Nat) (now : Int) (draw : Draw) :
    Except SelectionError Pick :=
  match b.choose pool places now draw with
  | some c => .ok (register c now)
  | none => .error .noAvailableNode

theorem choose_eq_none_iff {b : Balancer} {pool : Pool} {places : List Nat} {now : Int}
    {draw : Draw} : b.choose pool places now draw = none ↔ places = [] := by
  cases places with
  | nil => simp [choose]
  | cons first rest =>
    cases b with
    | twoChoices forceAfter forcing => by_cases h : rest.isEmpty <;> simp [choose, h]
    | rotation state => simp [choose]
    | uniform => simp [choose]

end Balancer

def Algorithm.balancer (a : Algorithm) (forceAfter : Nat) : Balancer :=
  match a with
  | twoChoices => .twoChoices forceAfter false
  | rotation => .rotation Rotation.empty
  | uniform => .uniform

end NodeSelection
