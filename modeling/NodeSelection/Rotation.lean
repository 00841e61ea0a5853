import NodeSelection.Table

/-!
Smooth weighted round robin. Every address has a running weight. A pick adds each
candidate's weight to the running weight of its address, takes the candidate whose
running weight is greatest at that point, the first of equals, and takes the total
weight of the list off the winner. So picks interleave in proportion to weight,
and a pick gives out as much running weight as it takes back.
-/

namespace NodeSelection

/-- The running weights by address. They outlive the list of candidates. -/
structure Rotation (α : Type) where
  running : Table α

namespace Rotation

/-- The best candidate so far: its place in the list and its running weight as it was then. -/
structure Leader (α : Type) where
  position : Nat
  address : String
  value : α

structure Pass (α : Type) where
  running : Table α
  total : α
  position : Nat
  leader : Option (Leader α)

variable {α : Type}

def empty : Rotation α := ⟨Table.empty⟩

instance : Inhabited (Rotation α) := ⟨empty⟩

/-- Forgets the addresses that are not listed, if there are more than the list is long. -/
def prune (r : Rotation α) (candidates : List (String × α)) : Table α :=
  if candidates.length < r.running.size then
    r.running.restrict fun address => (candidates.map Prod.fst).contains address
  else r.running

variable [Add α]

def grown (running : Table α) (address : String) (weight : α) : α :=
  match running.get? address with
  | some current => current + weight
  | none => weight

variable [Sub α] [Zero α] [LT α] [DecidableLT α]

namespace Pass

def begun (running : Table α) : Pass α := ⟨running, 0, 0, none⟩

/-- Takes the lead only with a strictly greater running weight. -/
def challenge (p : Pass α) (address : String) (value : α) : Leader α :=
  match p.leader with
  | none => ⟨p.position, address, value⟩
  | some best => if best.value < value then ⟨p.position, address, value⟩ else best

def visit (p : Pass α) (candidate : String × α) : Pass α :=
  let value := grown p.running candidate.1 candidate.2
  { running := p.running.insert candidate.1 value
    total := p.total + candidate.2
    position := p.position + 1
    leader := some (p.challenge candidate.1 value) }

end Pass

def pass (r : Rotation α) (candidates : List (String × α)) : Pass α :=
  candidates.foldl Pass.visit (Pass.begun (r.prune candidates))

/-- Picks one of the candidates, each given by address and weight. The result is the place of the
winner, none only for the empty list, which also changes nothing. -/
def pick (r : Rotation α) (candidates : List (String × α)) : Rotation α × Option Nat :=
  match candidates with
  | [] => (r, none)
  | _ :: _ =>
    let p := r.pass candidates
    match p.leader with
    | none => (⟨p.running⟩, none)
    | some winner =>
      (⟨p.running.insert winner.address (winner.value - p.total)⟩, some winner.position)

end Rotation

end NodeSelection
