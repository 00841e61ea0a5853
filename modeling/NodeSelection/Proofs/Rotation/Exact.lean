import NodeSelection.Proofs.Binary64.Exact
import NodeSelection.Proofs.Rotation.Claims

/-! Rotations on doubles. As long as running weights and weights are whole and their
sums stay below `2^53`, a pick on doubles is the pick on whole numbers. -/

namespace NodeSelection
namespace Table
variable {α β : Type}

def map (f : α → β) (t : Table α) : Table β :=
  ⟨t.entries.map fun e => (e.1, f e.2), by simpa [Function.comp_def] using t.nodup⟩

@[simp]
theorem size_map (f : α → β) (t : Table α) : (t.map f).size = t.size := by
  simp [size, map]

theorem put_map (f : α → β) (k : String) (v : α) (l : List (String × α)) :
    put k (f v) (l.map fun e => (e.1, f e.2)) = (put k v l).map fun e => (e.1, f e.2) := by
  induction l with
  | nil => rfl
  | cons e rest ih =>
    simp only [List.map_cons, put]
    split
    · rfl
    · rw [ih, List.map_cons]

theorem find?_map (f : α → β) (k : String) (l : List (String × α)) :
    find? k (l.map fun e => (e.1, f e.2)) = (find? k l).map f := by
  induction l with
  | nil => rfl
  | cons e rest ih =>
    simp only [List.map_cons, find?]
    split
    · rfl
    · exact ih

@[simp]
theorem get?_map (f : α → β) (t : Table α) (k : String) : (t.map f).get? k = (t.get? k).map f :=
  find?_map f k t.entries

theorem insert_map (f : α → β) (t : Table α) (k : String) (v : α) :
    (t.map f).insert k (f v) = (t.insert k v).map f := by
  simp only [insert, map, put_map]

theorem restrict_map (f : α → β) (t : Table α) (p : String → Bool) :
    (t.map f).restrict p = (t.restrict p).map f := by
  simp only [restrict, map, List.filter_map, Function.comp_def]

end Table

namespace Rotation
variable {α β : Type}

def map (f : α → β) (r : Rotation α) : Rotation β := ⟨r.running.map f⟩

def Leader.map (f : α → β) (l : Leader α) : Leader β := ⟨l.position, l.address, f l.value⟩

def Pass.map (f : α → β) (p : Pass α) : Pass β :=
  ⟨p.running.map f, f p.total, p.position, p.leader.map (Leader.map f)⟩

def doubles (candidates : List (String × Int)) : List (String × Float) :=
  candidates.map fun c => (c.1, Binary64.ofInt c.2)

theorem prune_map (r : Rotation Int) (candidates : List (String × Int)) :
    (r.map Binary64.ofInt).prune (doubles candidates) =
      (r.prune candidates).map Binary64.ofInt := by
  simp only [prune, map, doubles, Table.size_map, List.length_map, List.map_map,
    Function.comp_def, Table.restrict_map]
  split <;> rfl

structure Pass.Within (bound : Int) (p : Pass Int) : Prop where
  total : 0 ≤ p.total
  running : ∀ address value, p.running.get? address = some value →
    -bound ≤ value ∧ value ≤ bound + p.total
  leader : ∀ l, p.leader = some l → -bound ≤ l.value ∧ l.value ≤ bound + p.total

theorem Pass.Within.grown {bound : Int} {p : Pass Int} (within : p.Within bound)
    (pos : 0 ≤ bound) (address : String) {weight : Int} (nonneg : 0 ≤ weight) :
    -bound ≤ grown p.running address weight ∧
      grown p.running address weight ≤ bound + p.total + weight := by
  have total := within.total
  rw [Rotation.grown]
  split
  · rename_i value found
    have range := within.running address value found
    omega
  · omega

theorem Pass.Within.visit {bound : Int} {p : Pass Int} (within : p.Within bound)
    (pos : 0 ≤ bound) {c : String × Int} (nonneg : 0 ≤ c.2) : (p.visit c).Within bound := by
  have total := within.total
  have value := within.grown pos c.1 nonneg
  refine ⟨?_, fun address v found => ?_, fun l led => ?_⟩
  · simp only [Pass.visit]
    omega
  · simp only [Pass.visit, Table.get?_insert] at found ⊢
    split at found
    · cases found
      omega
    · have range := within.running address v found
      omega
  · simp only [Pass.visit, Option.some.injEq] at led ⊢
    subst led
    rw [Pass.challenge]
    split
    · dsimp only
      omega
    · rename_i best led
      have range := within.leader best led
      split
      · dsimp only
        omega
      · omega

theorem visit_map {bound : Int} {p : Pass Int} (within : p.Within bound) (pos : 0 ≤ bound)
    {c : String × Int} (nonneg : 0 ≤ c.2) (fits : bound + p.total + c.2 < 2 ^ 53) :
    (p.map Binary64.ofInt).visit (c.1, Binary64.ofInt c.2) =
      (p.visit c).map Binary64.ofInt := by
  have total := within.total
  have range := within.grown pos c.1 nonneg
  have value : grown (p.map Binary64.ofInt).running c.1 (Binary64.ofInt c.2) =
      Binary64.ofInt (grown p.running c.1 c.2) := by
    simp only [grown, Pass.map, Table.get?_map]
    cases found : p.running.get? c.1 with
    | none => rfl
    | some current =>
      have held := within.running c.1 current found
      simp only [Option.map_some]
      refine Binary64.ofInt_add ?_ ?_ ?_ <;> simp only [Binary64.Exact] <;> omega
  have sum : Binary64.ofInt p.total + Binary64.ofInt c.2 = Binary64.ofInt (p.total + c.2) := by
    refine Binary64.ofInt_add ?_ ?_ ?_ <;> simp only [Binary64.Exact] <;> omega
  have leader : (p.map Binary64.ofInt).challenge c.1 (Binary64.ofInt (grown p.running c.1 c.2)) =
      (p.challenge c.1 (grown p.running c.1 c.2)).map Binary64.ofInt := by
    simp only [Pass.challenge, Pass.map]
    cases led : p.leader with
    | none => rfl
    | some best =>
      have held := within.leader best led
      have order : Binary64.ofInt best.value < Binary64.ofInt (grown p.running c.1 c.2) ↔
          best.value < grown p.running c.1 c.2 := by
        refine Binary64.ofInt_lt_ofInt ?_ ?_ <;> simp only [Binary64.Exact] <;> omega
      simp only [Option.map_some, Leader.map]
      by_cases exceeded : best.value < grown p.running c.1 c.2
      · rw [if_pos exceeded, if_pos (order.2 exceeded)]
      · rw [if_neg exceeded, if_neg (mt order.1 exceeded)]
  simp only [Pass.visit, value, leader]
  simp only [Pass.map, Table.insert_map, sum, Option.map_some]

theorem foldl_visit_map {bound : Int} {p : Pass Int} (within : p.Within bound) (pos : 0 ≤ bound)
    {rest : List (String × Int)} (nonneg : ∀ c ∈ rest, 0 ≤ c.2)
    (fits : bound + p.total + total rest < 2 ^ 53) :
    (doubles rest).foldl Pass.visit (p.map Binary64.ofInt) =
        (rest.foldl Pass.visit p).map Binary64.ofInt ∧
      (rest.foldl Pass.visit p).Within bound := by
  induction rest generalizing p with
  | nil => exact ⟨rfl, within⟩
  | cons c rest ih =>
    have first := nonneg c List.mem_cons_self
    have others : ∀ d ∈ rest, 0 ≤ d.2 := fun d later => nonneg d (List.mem_cons_of_mem c later)
    have split : total (c :: rest) = c.2 + total rest := by simp [total]
    have left := total_nonneg others
    have visited := ih (within.visit pos first) others (by
      simp only [Pass.visit]
      omega)
    refine ⟨?_, visited.2⟩
    rw [List.foldl_cons, ← visited.1, ← visit_map within pos first (by omega)]
    rfl

/-- A pick on doubles, where the running weights are whole and bounded. -/
theorem pick_map {r : Rotation Int} {candidates : List (String × Int)} {bound : Int}
    (pos : 0 ≤ bound)
    (bounded : ∀ address value, r.running.get? address = some value →
      -bound ≤ value ∧ value ≤ bound)
    (nonneg : ∀ c ∈ candidates, 0 ≤ c.2) (fits : bound + total candidates < 2 ^ 53) :
    (r.map Binary64.ofInt).pick (doubles candidates) =
      ((r.pick candidates).1.map Binary64.ofInt, (r.pick candidates).2) := by
  have begun : (Pass.begun (r.prune candidates)).Within bound := by
    refine ⟨Int.le_refl 0, fun address value found => ?_, fun l led => by cases led⟩
    have range := bounded address value (get?_of_get?_prune found)
    simp only [Pass.begun]
    omega
  have folded := foldl_visit_map begun pos nonneg (by simpa [Pass.begun] using fits)
  have passed : (r.map Binary64.ofInt).pass (doubles candidates) =
      (r.pass candidates).map Binary64.ofInt := by
    rw [pass, prune_map, pass, ← folded.1]
    rfl
  rcases eq_or_ne candidates [] with rfl | ne
  · rfl
  have covers := covers_pass r nonneg
  obtain ⟨l, led, _⟩ := covers.leader.resolve_left fun unled => ne unled.1
  have range := folded.2.leader l led
  have sum := folded.2.total
  have within : (r.pass candidates).total = total candidates := covers.total
  have paid : Binary64.ofInt l.value - Binary64.ofInt (r.pass candidates).total =
      Binary64.ofInt (l.value - (r.pass candidates).total) := by
    rw [pass] at within ⊢
    refine Binary64.ofInt_sub ?_ ?_ ?_ <;> simp only [Binary64.Exact] <;> omega
  rw [pick_eq ne led, pick_eq (l := l.map Binary64.ofInt) (by simpa [doubles] using ne)
    (by rw [passed, Pass.map, led]; rfl), passed]
  simp only [Pass.map, Leader.map, map, paid, Table.insert_map]

end Rotation
end NodeSelection
