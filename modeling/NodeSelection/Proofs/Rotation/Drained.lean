import NodeSelection.Proofs.Rotation.Churn

/-! Candidates of no weight. Such a candidate gains nothing, so it can win only by running weight
that it has kept, or because the others are in debt to addresses that have left with theirs.
While no address leaves, the running weights add up to nothing (`Settled`) and some candidate
has a positive claim. -/

namespace NodeSelection.Rotation
open Finset

def listed (candidates : List (String × Int)) : Finset String := (candidates.map Prod.fst).toFinset

theorem mem_listed {candidates : List (String × Int)} {address : String} :
    address ∈ listed candidates ↔ address ∈ candidates.map Prod.fst := List.mem_toFinset

theorem sum_demand_listed (candidates : List (String × Int)) :
    ∑ address ∈ listed candidates, demand candidates address = total candidates :=
  sum_demand fun _ member => mem_listed.2 (List.mem_map_of_mem member)

/-- The running weights are those of some addresses and add up to nothing. -/
structure Settled (addresses : Finset String) (running : Table Int) : Prop where
  keys : ∀ address ∈ running.keys, address ∈ addresses
  balance : balance running addresses = 0

theorem settled_empty : Settled ∅ Table.empty where
  keys address member := by cases member
  balance := rfl

theorem Settled.mono {addresses larger : Finset String} {running : Table Int}
    (settled : Settled addresses running) (within : addresses ⊆ larger) :
    Settled larger running := by
  refine ⟨fun address member => within (settled.keys address member), ?_⟩
  rw [← settled.balance]
  refine (sum_subset within fun address _ absent => ?_).symm
  exact credit_of_not_mem fun member => absent (settled.keys address member)

section
variable {r : Rotation Int} {candidates : List (String × Int)} {place : Nat} {winner : String}
  (won : Won r candidates place winner)
include won

theorem Won.settled (settled : Settled (listed candidates) r.running) :
    Settled (listed candidates) (r.pick candidates).1.running := by
  refine ⟨fun address member => ?_, ?_⟩
  · rcases won.mem_kept.1 (List.mem_toFinset.2 member) with named | kept
    · exact mem_listed.2 named
    · obtain ⟨value, found⟩ := Table.mem_keys_iff.1 kept
      exact settled.keys address (Table.mem_keys_iff.2 ⟨value, get?_of_get?_prune found⟩)
  · have within : listed candidates ⊆ r.kept candidates := fun address member =>
      won.mem_kept.2 (Or.inl (mem_listed.1 member))
    rw [won.balance within, settled.balance, sum_demand_listed, if_pos (mem_listed.2 won.mem)]
    ring

theorem Won.claim_pos (settled : Settled (listed candidates) r.running)
    (pos : 0 < total candidates) : 0 < claim r.running candidates winner := by
  have claims : ∑ address ∈ listed candidates, claim r.running candidates address =
      total candidates := by
    rw [← zero_add (total candidates), ← settled.balance, ← sum_demand_listed, Rotation.balance,
      ← sum_add_distrib]
    rfl
  by_contra low
  have none := sum_nonpos fun address member =>
    (won.greatest address (mem_listed.1 member)).trans (Int.not_lt.1 low)
  omega

theorem Won.credit_nonpos {address : String} (low : Rotation.credit r.running address ≤ 0)
    (drained : demand candidates address = 0) (nonneg : 0 ≤ total candidates) :
    Rotation.credit (r.pick candidates).1.running address ≤ 0 := by
  by_cases named : address ∈ candidates.map Prod.fst
  · rw [won.credit named, claim, drained]
    split <;> omega
  · have other : address ≠ winner := fun same => named (same ▸ won.mem)
    rw [Rotation.credit, won.running, if_neg other, if_neg named]
    cases kept : (r.prune candidates).get? address with
    | none => exact le_rfl
    | some value =>
      rw [Rotation.credit, get?_of_get?_prune kept] at low
      exact low

end

section
variable {length weight : Nat} {lists : List (List (String × Int))}
  (modest : ∀ l ∈ lists, Modest length weight l)
include modest

theorem settled_through {r : Rotation Int} {first last : Finset String}
    (settled : Settled first r.running)
    (grows : (first :: (lists.map listed ++ [last])).IsChain (· ⊆ ·)) :
    Settled last (r.through lists).running := by
  induction lists generalizing r first with
  | nil => exact settled.mono (List.isChain_cons_cons.1 grows).1
  | cons candidates rest ih =>
    obtain ⟨now, later⟩ := List.forall_mem_cons.1 modest
    obtain ⟨within, grows⟩ := List.isChain_cons_cons.1 grows
    obtain ⟨place, winner, won⟩ := exists_won r now.ne fun c member => (now.weights c member).1
    exact ih later (won.settled (settled.mono within)) grows

theorem credit_nonpos_through {r : Rotation Int} {address : String}
    (low : credit r.running address ≤ 0) (drained : ∀ l ∈ lists, demand l address = 0) :
    credit (r.through lists).running address ≤ 0 := by
  induction lists generalizing r with
  | nil => exact low
  | cons candidates rest ih =>
    obtain ⟨now, later⟩ := List.forall_mem_cons.1 modest
    obtain ⟨here, elsewhere⟩ := List.forall_mem_cons.1 drained
    have nonneg : ∀ c ∈ candidates, 0 ≤ c.2 := fun c member => (now.weights c member).1
    obtain ⟨place, winner, won⟩ := exists_won r now.ne nonneg
    exact ih later (won.credit_nonpos low here (total_nonneg nonneg)) elsewhere

end
end NodeSelection.Rotation
