import NodeSelection.Candidate

/-!
A set of candidates that are told apart by their place. Every operation on one
place leaves the others as they are, and none changes the number of candidates.
-/

namespace NodeSelection

structure Pool where
  candidates : List Candidate

namespace Pool

def empty : Pool := ⟨[]⟩

instance : Inhabited Pool := ⟨empty⟩

def size (p : Pool) : Nat := p.candidates.length

def places (p : Pool) : List Nat := List.range p.size

def get? (p : Pool) (place : Nat) : Option Candidate := p.candidates[place]?

def address (p : Pool) (place : Nat) : String :=
  match p.get? place with
  | some c => c.address
  | none => ""

def set (p : Pool) (place : Nat) (c : Candidate) : Pool := ⟨p.candidates.set place c⟩

def weigh (p : Pool) (place : Nat) (now : Int) : Float × Pool :=
  match p.get? place with
  | some c =>
    let r := c.weigh now
    (r.1, p.set place r.2)
  | none => (0, p)

def weighAll (p : Pool) (now : Int) : List Nat → List Float × Pool
  | [] => ([], p)
  | place :: rest =>
    let first := p.weigh place now
    let others := first.2.weighAll now rest
    (first.1 :: others.1, others.2)

def pick (p : Pool) (place : Nat) (now : Int) : Pool × Nat :=
  match p.get? place with
  | some c =>
    let r := c.pick now
    (p.set place r.1, r.2)
  | none => (p, 0)

def complete (p : Pool) (place number : Nat) (now : Int) (outcome : Outcome)
    (journal : Journal) : Pool × Option Completion × Journal :=
  match p.get? place with
  | some c =>
    let r := c.complete number now outcome journal
    (p.set place r.1, r.2)
  | none => (p, none, journal)

def idle (p : Pool) (place : Nat) (now : Int) : Idle :=
  match p.get? place with
  | some c => c.idle now
  | none => .never

@[simp]
theorem size_set (p : Pool) (place : Nat) (c : Candidate) : (p.set place c).size = p.size := by
  simp [size, set]

theorem get?_set_self {p : Pool} {place : Nat} (h : place < p.size) (c : Candidate) :
    (p.set place c).get? place = some c := by
  simp [get?, set, List.getElem?_set_self h]

theorem get?_set_of_ne (p : Pool) {place other : Nat} (h : place ≠ other) (c : Candidate) :
    (p.set place c).get? other = p.get? other := by
  simp [get?, set, List.getElem?_set_ne h]

@[simp]
theorem size_weigh (p : Pool) (place : Nat) (now : Int) :
    (p.weigh place now).2.size = p.size := by
  simp only [weigh]
  split <;> simp

@[simp]
theorem size_weighAll (p : Pool) (now : Int) (places : List Nat) :
    (p.weighAll now places).2.size = p.size := by
  induction places generalizing p with
  | nil => rfl
  | cons place rest ih => simp [weighAll, ih]

@[simp]
theorem length_weighAll (p : Pool) (now : Int) (places : List Nat) :
    (p.weighAll now places).1.length = places.length := by
  induction places generalizing p with
  | nil => rfl
  | cons place rest ih => simp [weighAll, ih]

@[simp]
theorem size_pick (p : Pool) (place : Nat) (now : Int) : (p.pick place now).1.size = p.size := by
  simp only [pick]
  split <;> simp

@[simp]
theorem size_complete (p : Pool) (place number : Nat) (now : Int) (outcome : Outcome)
    (journal : Journal) : (p.complete place number now outcome journal).1.size = p.size := by
  simp only [complete]
  split <;> simp

theorem set_self {p : Pool} {place : Nat} {c : Candidate} (here : p.get? place = some c) :
    p.set place c = p := by
  obtain ⟨inside, rfl⟩ := List.getElem?_eq_some_iff.1 here
  rw [set, List.set_getElem_self]

theorem get?_weigh_of_ne (p : Pool) {place other : Nat} (h : place ≠ other) (now : Int) :
    (p.weigh place now).2.get? other = p.get? other := by
  simp only [weigh]
  split
  · exact get?_set_of_ne p h _
  · rfl

theorem get?_pick_of_ne (p : Pool) {place other : Nat} (h : place ≠ other) (now : Int) :
    (p.pick place now).1.get? other = p.get? other := by
  simp only [pick]
  split
  · exact get?_set_of_ne p h _
  · rfl

theorem get?_complete_self {p : Pool} {place : Nat} {c : Candidate} (here : p.get? place = some c)
    (number : Nat) (now : Int) (outcome : Outcome) (journal : Journal) :
    (p.complete place number now outcome journal).1.get? place =
      some (c.complete number now outcome journal).1 := by
  rw [complete, here]
  exact get?_set_self (List.getElem?_eq_some_iff.1 here).1 _

/-- The journal only grows; what becomes of the candidates does not depend on it. -/
theorem complete_journal (p : Pool) (place number : Nat) (now : Int) (outcome : Outcome)
    (one other : Journal) :
    (p.complete place number now outcome one).1 = (p.complete place number now outcome other).1 ∧
      (p.complete place number now outcome one).2.1 =
        (p.complete place number now outcome other).2.1 := by
  rw [complete, complete]
  cases p.get? place with
  | none => exact ⟨rfl, rfl⟩
  | some c =>
    obtain ⟨same, told⟩ := c.complete_journal number now outcome one other
    dsimp only
    rw [same]
    exact ⟨rfl, told⟩

theorem get?_complete_of_ne (p : Pool) {place other : Nat} (ne : place ≠ other) (number : Nat)
    (now : Int) (outcome : Outcome) (journal : Journal) :
    (p.complete place number now outcome journal).1.get? other = p.get? other := by
  rw [complete]
  split
  · exact get?_set_of_ne p ne _
  · rfl

end Pool

def Wrapping.pool (w : Wrapping) (nodes : List Node) : Pool := ⟨nodes.map w.wrap⟩

@[simp]
theorem Wrapping.size_pool (w : Wrapping) (nodes : List Node) :
    (w.pool nodes).size = nodes.length := by
  simp [pool, Pool.size]

end NodeSelection
