import NodeSelection.Proofs.Rotation.Drift

/-! Picks among candidates with distinct addresses, in numbers of any kind. A pass raises every
address once, by the weight of its only candidate, so what a pick leaves behind is known place by
place without any law of arithmetic, and so are the addresses that it knows. -/

namespace NodeSelection.Rotation

section
variable {α : Type}

theorem mem_keys_prune {r : Rotation α} {candidates : List (String × α)} {address : String}
    (listed : address ∈ candidates.map Prod.fst) :
    address ∈ (r.prune candidates).keys ↔ address ∈ r.running.keys := by
  rw [Table.mem_keys_iff, Table.mem_keys_iff, get?_prune listed]

theorem mem_keys_prune_iff {r : Rotation α} {candidates : List (String × α)}
    (distinct : (candidates.map Prod.fst).Nodup)
    (known : ∀ address ∈ candidates.map Prod.fst, address ∈ r.running.keys) (address : String) :
    address ∈ (r.prune candidates).keys ↔ address ∈ candidates.map Prod.fst := by
  have within : (candidates.map Prod.fst).Subperm (r.prune candidates).keys :=
    List.subperm_of_subset distinct fun _ listed => (mem_keys_prune listed).2 (known _ listed)
  have few : (r.prune candidates).keys.length ≤ (candidates.map Prod.fst).length := by
    rw [Table.length_keys, List.length_map]
    exact size_prune_le r candidates
  exact (within.perm_of_length_le few).mem_iff.symm

theorem not_mem_of_nodup {seen rest : List (String × α)} {c : String × α}
    (distinct : ((seen ++ c :: rest).map Prod.fst).Nodup) : c.1 ∉ seen.map Prod.fst := by
  rw [List.map_append, List.map_cons] at distinct
  exact fun member => (List.disjoint_of_nodup_append distinct) member List.mem_cons_self

variable [Add α]

theorem grown_prune {r : Rotation α} {candidates : List (String × α)} {address : String}
    (listed : address ∈ candidates.map Prod.fst) (weight : α) :
    grown (r.prune candidates) address weight = grown r.running address weight := by
  rw [grown, get?_prune listed, grown]

variable [Zero α]

def summed (candidates : List (String × α)) : α := candidates.foldl (fun sum c => sum + c.2) 0

/-- A pass that began with some running weights and has visited distinct addresses. -/
structure Raised (start : Table α) (seen : List (String × α)) (p : Pass α) : Prop where
  running : ∀ c ∈ seen, p.running.get? c.1 = some (grown start c.1 c.2)
  others : ∀ address, address ∉ seen.map Prod.fst → p.running.get? address = start.get? address
  total : p.total = summed seen
  position : p.position = seen.length
  leader : seen = [] ∧ p.leader = none ∨ ∃ place c, seen[place]? = some c ∧
    p.leader = some ⟨place, c.1, grown start c.1 c.2⟩

theorem raised_begun (start : Table α) : Raised start [] (Pass.begun start) where
  running c member := by cases member
  others address absent := rfl
  total := rfl
  position := rfl
  leader := Or.inl ⟨rfl, rfl⟩

theorem Raised.grown {start : Table α} {seen : List (String × α)} {p : Pass α}
    (raised : Raised start seen p) {address : String} (new : address ∉ seen.map Prod.fst)
    (weight : α) : Rotation.grown p.running address weight = Rotation.grown start address weight := by
  rw [Rotation.grown, raised.others address new, Rotation.grown]

variable [LT α] [DecidableLT α]

theorem Raised.visit {start : Table α} {seen : List (String × α)} {p : Pass α}
    (raised : Raised start seen p) {c : String × α} (new : c.1 ∉ seen.map Prod.fst) :
    Raised start (seen ++ [c]) (p.visit c) := by
  have value := raised.grown new c.2
  refine ⟨fun d member => ?_, fun address absent => ?_, ?_, ?_, Or.inr ?_⟩
  · rw [Pass.visit, Table.get?_insert, value]
    rcases List.mem_append.1 member with earlier | last
    · have other : d.1 ≠ c.1 := fun same => new (same ▸ List.mem_map_of_mem earlier)
      rw [if_neg other, raised.running d earlier]
    · rw [List.mem_singleton.1 last, if_pos rfl]
  · rw [List.map_append, List.map_singleton, List.mem_append, List.mem_singleton, not_or] at absent
    rw [Pass.visit, Table.get?_insert, if_neg absent.2, raised.others address absent.1]
  · rw [Pass.visit, raised.total, summed, summed, List.foldl_append]
    rfl
  · rw [Pass.visit, raised.position, List.length_append, List.length_singleton]
  have last : (seen ++ [c])[p.position]? = some c := by
    rw [raised.position, List.getElem?_concat_length]
  rw [Pass.visit, value, Pass.challenge]
  rcases raised.leader with ⟨_, unled⟩ | ⟨place, best, found, led⟩
  · rw [unled]
    exact ⟨_, c, last, rfl⟩
  · rw [led]
    dsimp only
    split
    · exact ⟨_, c, last, rfl⟩
    · have inside := (List.getElem?_eq_some_iff.1 found).1
      exact ⟨place, best, (List.getElem?_append_left inside).trans found, rfl⟩

theorem Raised.foldl {start : Table α} {seen rest : List (String × α)} {p : Pass α}
    (raised : Raised start seen p) (distinct : ((seen ++ rest).map Prod.fst).Nodup) :
    Raised start (seen ++ rest) (rest.foldl Pass.visit p) := by
  induction rest generalizing seen p with
  | nil => simpa using raised
  | cons c rest ih =>
    have new := not_mem_of_nodup distinct
    rw [List.append_cons] at distinct ⊢
    exact ih (raised.visit new) distinct

theorem raised_pass (r : Rotation α) {candidates : List (String × α)}
    (distinct : (candidates.map Prod.fst).Nodup) :
    Raised (r.prune candidates) candidates (r.pass candidates) :=
  (raised_begun (r.prune candidates)).foldl distinct

variable [Sub α]

/-- The outcome of a pick among distinct addresses: each of them is raised, and the winner pays. -/
structure Turned (r : Rotation α) (candidates : List (String × α)) (place : Nat)
    (winner : String) : Prop where
  chosen : (r.pick candidates).2 = some place
  candidate : ∃ weight, candidates[place]? = some (winner, weight)
  raised : ∀ address weight, (address, weight) ∈ candidates →
    (r.pick candidates).1.running.get? address =
      some (if address = winner then grown r.running address weight - summed candidates
        else grown r.running address weight)
  others : ∀ address, address ∉ candidates.map Prod.fst →
    (r.pick candidates).1.running.get? address = (r.prune candidates).get? address

theorem exists_turned (r : Rotation α) {candidates : List (String × α)} (ne : candidates ≠ [])
    (distinct : (candidates.map Prod.fst).Nodup) :
    ∃ place winner, Turned r candidates place winner := by
  have raised := raised_pass r distinct
  obtain ⟨place, c, found, led⟩ := raised.leader.resolve_left fun unled => ne unled.1
  have member : c ∈ candidates := List.mem_of_getElem? found
  have picked := pick_eq ne led
  refine ⟨place, c.1, ?_, ⟨c.2, found⟩, fun address weight listed => ?_, fun address absent => ?_⟩
  · rw [picked]
  · have named : address ∈ candidates.map Prod.fst := List.mem_map_of_mem (f := Prod.fst) listed
    have value := raised.running _ listed
    rw [grown_prune named] at value
    rw [picked, Table.get?_insert, value, raised.total]
    split
    · rename_i same
      -- The winner is the only candidate of its address.
      have only : (address, weight) = c := List.inj_on_of_nodup_map distinct listed member same
      rw [← only, grown_prune named]
    · rfl
  · have other : address ≠ c.1 := fun same => absent (same ▸ List.mem_map_of_mem member)
    rw [picked, Table.get?_insert, if_neg other, raised.others address absent]

section
variable {r : Rotation α} {candidates : List (String × α)} {place : Nat} {winner : String}
  (turned : Turned r candidates place winner)
include turned

theorem Turned.mem_keys {address : String} : address ∈ (r.pick candidates).1.running.keys ↔
    address ∈ candidates.map Prod.fst ∨ address ∈ (r.prune candidates).keys := by
  by_cases listed : address ∈ candidates.map Prod.fst
  · obtain ⟨c, member, rfl⟩ := List.mem_map.1 listed
    rw [Table.mem_keys_iff]
    exact iff_of_true ⟨_, turned.raised c.1 c.2 member⟩ (Or.inl listed)
  · rw [Table.mem_keys_iff, Table.mem_keys_iff, turned.others address listed]
    simp only [listed, false_or]

theorem Turned.size_le : (r.pick candidates).1.running.size ≤ 2 * candidates.length := by
  have within : (r.pick candidates).1.running.keys ⊆
      candidates.map Prod.fst ++ (r.prune candidates).keys :=
    fun _ member => List.mem_append.2 (turned.mem_keys.1 member)
  have few := (List.subperm_of_subset (Table.nodup _) within).length_le
  have stale := size_prune_le r candidates
  rw [List.length_append, List.length_map, List.length_map, Table.length_keys] at few
  rw [Table.size]
  omega

end

end
end NodeSelection.Rotation
