import NodeSelection.Proofs.Rotation.Churn

/-! What a pick does to the running weights as a whole. The listed addresses gain their weights and
the winner, whose claim is the greatest, pays the total of the list, also where addresses repeat. So
nothing is won or lost over all the running weights that pruning has left. -/

namespace NodeSelection

namespace Table
variable {α : Type}

theorem get?_of_mem {t : Table α} {e : String × α} (member : e ∈ t.entries) :
    t.get? e.1 = some e.2 := by
  obtain ⟨l, nodup⟩ := t
  rw [get?]
  induction l with
  | nil => cases member
  | cons d rest ih =>
    rw [List.map_cons, List.nodup_cons] at nodup
    rw [find?]
    rcases List.mem_cons.1 member with rfl | later
    · rw [if_pos rfl]
    · have other : d.1 ≠ e.1 := fun same => nodup.1 (same ▸ List.mem_map_of_mem later)
      rw [if_neg other]
      exact ih nodup.2 later

end Table

namespace Rotation

theorem sum_values (running : Table Int) {addresses : Finset String}
    (all : ∀ address ∈ running.keys, address ∈ addresses) :
    running.values.sum = balance running addresses := by
  have held : running.values = running.keys.map (credit running) := by
    rw [Table.values, Table.keys, List.map_map]
    refine List.map_congr_left fun e member => ?_
    rw [Function.comp_apply, credit, Table.get?_of_mem member, Option.getD_some]
  have within : running.keys.toFinset ⊆ addresses := fun address member =>
    all address (List.mem_toFinset.1 member)
  have keys : running.keys.Nodup := running.nodup
  rw [held, ← List.sum_toFinset _ keys, balance]
  exact Finset.sum_subset within fun address _ absent =>
    credit_of_not_mem fun member => absent (List.mem_toFinset.2 member)

section
variable {r : Rotation Int} {candidates : List (String × Int)} {place : Nat} {winner : String}
  (won : Won r candidates place winner)
include won

theorem Won.balance_prune :
    Rotation.balance (r.prune candidates) (r.kept candidates) =
      Rotation.balance r.running (r.kept candidates) := by
  refine Finset.sum_congr rfl fun address member => ?_
  rcases won.mem_kept.1 member with listed | stale
  · exact credit_prune listed
  · obtain ⟨value, found⟩ := Table.mem_keys_iff.1 stale
    rw [Rotation.credit, found, Rotation.credit, get?_of_get?_prune found]

theorem Won.sum_values :
    (r.pick candidates).1.running.values.sum = (r.prune candidates).values.sum := by
  have listed : ∀ c ∈ candidates, c.1 ∈ r.kept candidates := fun c member =>
    won.mem_kept.2 (Or.inl (List.mem_map_of_mem member))
  have paid := won.balance (Finset.Subset.refl (r.kept candidates))
  rw [sum_demand listed, if_pos (won.mem_kept.2 (Or.inl won.mem)), add_assoc, add_neg_cancel,
    add_zero] at paid
  rw [Rotation.sum_values _ fun _ member => List.mem_toFinset.2 member,
    Rotation.sum_values _ fun _ member => won.mem_kept.2 (Or.inr member), won.balance_prune]
  exact paid

end
end Rotation

namespace Balancer
open Rotation

theorem exists_pick_won {state : Rotation Int} {r : Request} {candidates : List (String × Int)}
    {i : Nat} {winner : String} (won : Won state candidates i winner) (listed : r.Lists candidates)
    (turn : (state.map Binary64.ofInt).pick (doubles candidates) =
      ((state.pick candidates).1.map Binary64.ofInt, (state.pick candidates).2)) :
    ∃ p, (rotation (state.map Binary64.ofInt)).pick r.pool r.places r.now r.draw = .ok p ∧
      p.balancer = .rotation ((state.pick candidates).1.map Binary64.ofInt) ∧
      p.place ∈ r.places ∧ r.pool.address p.place = winner := by
  rw [← listed.offers_eq] at turn
  obtain ⟨weight, candidate⟩ := won.candidate
  have offered : r.offers[i]? = some (winner, Binary64.ofInt weight) := by
    rw [listed.offers_eq, doubles, List.getElem?_map, candidate, Option.map_some]
  obtain ⟨served, there, address⟩ := Request.exists_place offered
  obtain ⟨p, picked, balancer, place⟩ := exists_pick_rotation (state.map Binary64.ofInt)
    (List.ne_nil_of_mem (List.mem_of_getElem? there))
  have chosen : p.place = served := place i served (by rw [turn, won.chosen]) there
  rw [turn] at balancer
  exact ⟨p, picked, balancer, chosen ▸ List.mem_of_getElem? there, chosen ▸ address⟩

/-- A pick among whole weights, from whole running weights that are small enough for exact sums. -/
theorem pick_conserves {running : Table Int} {bound : Nat}
    (bounded : ∀ address value, running.get? address = some value → |value| ≤ bound)
    {r : Request} {candidates : List (String × Int)} (listed : r.Lists candidates)
    (ne : candidates ≠ []) (nonneg : ∀ c ∈ candidates, 0 ≤ c.2)
    (fits : bound + total candidates < 2 ^ 53) :
    let known := candidates.map Prod.fst
    let kept := if candidates.length < running.size then running.restrict (known.contains ·)
      else running
    ∃ (p : Pick) (after : Table Int),
      (rotation ⟨running.map Binary64.ofInt⟩).pick r.pool r.places r.now r.draw = .ok p ∧
      p.balancer = .rotation ⟨after.map Binary64.ofInt⟩ ∧
      after.values.sum = kept.values.sum ∧
      (∀ address, address ∉ known → after.get? address = kept.get? address) ∧
      (∀ address ∈ known, after.get? address = some (credit kept address +
        demand candidates address -
          if address = r.pool.address p.place then total candidates else 0)) ∧
      p.place ∈ r.places ∧
      ∀ address ∈ known, credit kept address + demand candidates address ≤
        credit kept (r.pool.address p.place) + demand candidates (r.pool.address p.place) := by
  intro known kept
  let state : Rotation Int := ⟨running⟩
  obtain ⟨i, winner, won⟩ := exists_won state ne nonneg
  have turn := pick_map (r := state) (Int.natCast_nonneg bound)
    (fun address value found => abs_le.1 (bounded address value found)) nonneg fits
  obtain ⟨p, picked, balancer, served, address⟩ := exists_pick_won won listed turn
  have claimed {other : String} (named : other ∈ known) :
      credit kept other + demand candidates other = claim running candidates other :=
    claim_prune (r := state) named
  refine ⟨p, (state.pick candidates).1.running, picked, balancer, won.sum_values,
    fun other absent => ?_, fun other named => ?_, served, fun other named => ?_⟩
  · have loser : other ≠ winner := fun same => absent (same ▸ won.mem)
    rw [won.running, if_neg loser, if_neg absent]
    rfl
  · rw [address, claimed named, won.get?_eq named, won.credit named]
    split
    · rfl
    · rw [add_zero, sub_zero]
  · rw [address, claimed named, claimed won.mem]
    exact won.greatest other named

/-- The list is shorter than the map, so `y` and `z` are forgotten, and `a` is listed twice. -/
theorem pick_conserves_repeated_address :
    let running : Table Int :=
      (((Table.empty.insert "a" 2).insert "y" 1).insert "b" (-5)).insert "z" 3
    let r := Request.fixed 100 1 default
      [Node.weighing "a" 3, Node.weighing "b" 1, Node.weighing "a" 2]
    ∃ (p : Pick) (after : Table Int),
      (rotation ⟨running.map Binary64.ofInt⟩).pick r.pool r.places r.now r.draw = .ok p ∧
      p.balancer = .rotation ⟨after.map Binary64.ofInt⟩ ∧ after.values.sum = -3 ∧
      after.get? "z" = none ∧ after.get? "b" = some (-4 - if "b" = r.pool.address p.place
        then 6 else 0) := by
  intro running r
  have bounded : ∀ address value, running.get? address = some value → |value| ≤ (5 : Nat) := by
    intro address value found
    simp only [running, Table.get?_insert, Table.get?_empty] at found
    split_ifs at found <;> cases found <;> decide
  have listed : r.Lists [("a", 3), ("b", 1), ("a", 2)] := Request.lists_fixed ..
  obtain ⟨p, after, picked, balancer, sum, others, grown, _⟩ :=
    pick_conserves bounded listed (by decide) (by decide) (by decide)
  exact ⟨p, after, picked, balancer, sum, others "z" (by decide), grown "b" (by decide)⟩

end Balancer
end NodeSelection
