import NodeSelection.Proofs.Rotation.Claims

/-! Fair shares. Consecutive picks among the same candidates, with distinct addresses,
keep three things: running weights are the distance of each candidate from its
proportional share, they sum to zero, and none falls to minus the total. The last
two bound them from above, and after a full cycle they leave nothing but zero. -/

namespace NodeSelection.Rotation

section
variable {α : Type} [Add α] [Sub α] [Zero α] [LT α] [DecidableLT α]

/-- Consecutive picks among the same candidates: the rotation after them and the places that they
chose, in order. -/
def turns (r : Rotation α) (candidates : List (String × α)) : Nat → Rotation α × List Nat
  | 0 => (r, [])
  | k + 1 =>
    let before := r.turns candidates k
    let last := before.1.pick candidates
    (last.1, before.2 ++ last.2.toList)

theorem turns_add (r : Rotation α) (candidates : List (String × α)) (j k : Nat) :
    r.turns candidates (j + k) =
      (((r.turns candidates j).1.turns candidates k).1,
        (r.turns candidates j).2 ++ ((r.turns candidates j).1.turns candidates k).2) := by
  induction k with
  | zero => simp [turns]
  | succ k ih => rw [← Nat.add_assoc, turns, ih, turns, List.append_assoc]

end

def unit (candidates : List (String × Int)) : Nat :=
  candidates.foldr (fun c g => Nat.gcd c.2.natAbs g) 0

/-- The number of picks after which everything repeats. -/
def period (candidates : List (String × Int)) : Nat := (total candidates).toNat / unit candidates

theorem unit_dvd {candidates : List (String × Int)} {c : String × Int} (mem : c ∈ candidates) :
    (unit candidates : Int) ∣ c.2 := by
  induction candidates with
  | nil => cases mem
  | cons d rest ih =>
    rw [unit, List.foldr_cons, ← unit]
    rcases List.mem_cons.1 mem with rfl | later
    · exact Int.ofNat_dvd_left.2 (Nat.gcd_dvd_left _ _)
    · exact (Int.natCast_dvd_natCast.2 (Nat.gcd_dvd_right _ _)).trans (ih later)

theorem unit_dvd_total (candidates : List (String × Int)) :
    (unit candidates : Int) ∣ total candidates := by
  refine List.dvd_sum fun w member => ?_
  obtain ⟨c, listed, rfl⟩ := List.mem_map.1 member
  exact unit_dvd listed

theorem unit_mul_period {candidates : List (String × Int)} (nonneg : 0 ≤ total candidates) :
    (unit candidates * period candidates : Int) = total candidates := by
  obtain ⟨n, hn⟩ := Int.eq_ofNat_of_zero_le nonneg
  have divides : unit candidates ∣ n := Int.natCast_dvd_natCast.1 (hn ▸ unit_dvd_total candidates)
  rw [period, hn, Int.toNat_natCast]
  exact_mod_cast Nat.mul_div_cancel' divides

theorem unit_pos {candidates : List (String × Int)} (pos : 0 < total candidates) :
    0 < unit candidates := by
  by_contra none
  have product := unit_mul_period pos.le
  rw [Nat.eq_zero_of_not_pos none, Nat.cast_zero, zero_mul] at product
  omega

theorem period_pos {candidates : List (String × Int)} (pos : 0 < total candidates) :
    0 < period candidates := by
  by_contra none
  have product := unit_mul_period pos.le
  rw [Nat.eq_zero_of_not_pos none, Nat.cast_zero, mul_zero] at product
  omega

theorem sum_ite_address {candidates : List (String × Int)}
    (distinct : (candidates.map Prod.fst).Nodup) {address : String}
    (listed : address ∈ candidates.map Prod.fst) (amount : Int) :
    (candidates.map fun c => if c.1 = address then amount else 0).sum = amount := by
  induction candidates with
  | nil => cases listed
  | cons d rest ih =>
    rw [List.map_cons, List.nodup_cons] at distinct
    rw [List.map_cons, List.sum_cons]
    rcases List.mem_cons.1 listed with rfl | later
    · have others : rest.map (fun c => if c.1 = d.1 then amount else 0) =
          rest.map fun _ => (0 : Int) := by
        refine List.map_congr_left fun c member => if_neg fun same => ?_
        exact distinct.1 (same ▸ List.mem_map_of_mem member)
      rw [if_pos rfl, others]
      simp
    · have other : d.1 ≠ address := fun same => distinct.1 (same ▸ later)
      rw [if_neg other, ih distinct.2 later, zero_add]

theorem fst_eq_iff_place_eq {candidates : List (String × Int)}
    (distinct : (candidates.map Prod.fst).Nodup) {i j : Nat} {c d : String × Int}
    (hi : candidates[i]? = some c) (hj : candidates[j]? = some d) : c.1 = d.1 ↔ i = j := by
  constructor
  · intro same
    have inside : i < (candidates.map Prod.fst).length := by
      rw [List.length_map]
      exact (List.getElem?_eq_some_iff.1 hi).1
    refine (List.getElem?_inj inside distinct).1 ?_
    rw [List.getElem?_map, List.getElem?_map, hi, hj, Option.map_some, Option.map_some, same]
  · rintro rfl
    rw [hi, Option.some.injEq] at hj
    rw [hj]

/-- Where a rotation stands after `k` picks that chose the given places. -/
structure Shares (candidates : List (String × Int)) (k : Nat) (running : Table Int)
    (places : List Nat) : Prop where
  length : places.length = k
  listed : ∀ address value, running.get? address = some value →
    address ∈ candidates.map Prod.fst
  share : ∀ i c, candidates[i]? = some c →
    credit running c.1 = k * c.2 - total candidates * places.count i
  balance : (candidates.map fun c => credit running c.1).sum = 0
  above : ∀ c ∈ candidates, -total candidates < credit running c.1

section
variable {candidates : List (String × Int)}

theorem shares_empty (pos : 0 < total candidates) : Shares candidates 0 Table.empty [] where
  length := rfl
  listed address value found := by cases found
  share i c found := by simp [credit]
  balance := by simp [credit]
  above c member := by simpa [credit] using pos

theorem claim_eq (running : Table Int) (distinct : (candidates.map Prod.fst).Nodup)
    {c : String × Int} (mem : c ∈ candidates) :
    claim running candidates c.1 = credit running c.1 + c.2 := by
  rw [claim, demand_of_mem distinct mem]

theorem Shares.sum_claims {k : Nat} {running : Table Int} {places : List Nat}
    (shares : Shares candidates k running places) :
    (candidates.map fun c => credit running c.1 + c.2).sum = total candidates := by
  rw [List.sum_map_add, shares.balance, zero_add]
  rfl

theorem Shares.claim_pos {k place : Nat} {r : Rotation Int} {places : List Nat} {address : String}
    (shares : Shares candidates k r.running places)
    (distinct : (candidates.map Prod.fst).Nodup) (pos : 0 < total candidates)
    (won : Won r candidates place address) : 0 < claim r.running candidates address := by
  by_contra low
  have least := List.sum_le_card_nsmul (candidates.map fun c => credit r.running c.1 + c.2) 0
    fun x among => by
      obtain ⟨c, listed, rfl⟩ := List.mem_map.1 among
      have greatest := won.greatest c.1 (List.mem_map_of_mem listed)
      rw [claim_eq r.running distinct listed] at greatest
      omega
  rw [shares.sum_claims, nsmul_zero] at least
  omega

theorem Won.credit_eq {r : Rotation Int} {place : Nat} {address : String}
    (won : Won r candidates place address) (distinct : (candidates.map Prod.fst).Nodup)
    {c : String × Int} (mem : c ∈ candidates) :
    Rotation.credit (r.pick candidates).1.running c.1 =
      Rotation.credit r.running c.1 + c.2 + if c.1 = address then -total candidates else 0 := by
  rw [won.credit (List.mem_map_of_mem mem), claim_eq r.running distinct mem]

theorem Shares.pick {k : Nat} {r : Rotation Int} {places : List Nat}
    (shares : Shares candidates k r.running places)
    (distinct : (candidates.map Prod.fst).Nodup) (nonneg : ∀ c ∈ candidates, 0 ≤ c.2)
    (pos : 0 < total candidates) :
    Shares candidates (k + 1) (r.pick candidates).1.running
      (places ++ (r.pick candidates).2.toList) := by
  have ne : candidates ≠ [] := by
    rintro rfl
    exact absurd pos (by decide)
  obtain ⟨place, address, won⟩ := exists_won r ne nonneg
  obtain ⟨weight, winner⟩ := won.candidate
  have member : address ∈ candidates.map Prod.fst :=
    List.mem_map_of_mem (f := Prod.fst) (List.mem_of_getElem? winner)
  refine ⟨?_, fun other value found => ?_, fun i c found => ?_, ?_, fun c listed => ?_⟩
  · simp [won.chosen, shares.length]
  · rw [won.running] at found
    split at found
    · rename_i same
      exact same ▸ member
    · split at found
      · assumption
      · exact shares.listed other value (get?_of_get?_prune found)
  · rw [won.credit_eq distinct (List.mem_of_getElem? found), shares.share i c found, won.chosen,
      Option.toList_some, List.count_append, List.count_singleton]
    have same := fst_eq_iff_place_eq distinct found winner
    by_cases here : place = i
    · rw [if_pos (same.2 here.symm), if_pos (by simpa using here)]
      push_cast
      ring
    · rw [if_neg (mt same.1 (Ne.symm here)), if_neg (by simpa using here)]
      push_cast
      ring
  · have after : (candidates.map fun c => credit (r.pick candidates).1.running c.1) =
        candidates.map fun c => credit r.running c.1 + c.2 +
          if c.1 = address then -total candidates else 0 :=
      List.map_congr_left fun c listed => won.credit_eq distinct listed
    rw [after, List.sum_map_add, shares.sum_claims, sum_ite_address distinct member,
      add_neg_cancel]
  · rw [won.credit_eq distinct listed]
    have low := shares.above c listed
    have own := nonneg c listed
    split
    · rename_i same
      have lead := shares.claim_pos distinct pos won
      rw [← same, claim_eq r.running distinct listed] at lead
      omega
    · omega

theorem shares_turns (distinct : (candidates.map Prod.fst).Nodup)
    (nonneg : ∀ c ∈ candidates, 0 ≤ c.2) (pos : 0 < total candidates) (k : Nat) :
    Shares candidates k (empty.turns candidates k).1.running (empty.turns candidates k).2 := by
  induction k with
  | zero => exact shares_empty pos
  | succ k ih => exact ih.pick distinct nonneg pos

theorem Shares.credit_add_others {k : Nat} {running : Table Int} {places : List Nat}
    (shares : Shares candidates k running places) {c : String × Int} (mem : c ∈ candidates) :
    credit running c.1 + ((candidates.erase c).map fun d => credit running d.1).sum = 0 := by
  have split := (List.perm_cons_erase mem).map fun d => credit running d.1
  have sum := split.sum_eq
  rw [shares.balance, List.map_cons, List.sum_cons] at sum
  exact sum.symm

theorem Shares.credit_le {k : Nat} {running : Table Int} {places : List Nat}
    (shares : Shares candidates k running places) {c : String × Int} (mem : c ∈ candidates) :
    credit running c.1 ≤ (candidates.length - 1 : Int) * total candidates := by
  have sum := shares.credit_add_others mem
  have others := List.card_nsmul_le_sum ((candidates.erase c).map fun d => credit running d.1)
    (-total candidates) fun x among => by
      obtain ⟨d, listed, rfl⟩ := List.mem_map.1 among
      exact (shares.above d (List.mem_of_mem_erase listed)).le
  have count : ((candidates.erase c).length : Int) = candidates.length - 1 := by
    rw [List.length_erase_of_mem mem]
    have := List.length_pos_of_mem mem
    omega
  rw [List.length_map, nsmul_eq_mul, count, mul_neg] at others
  linarith

theorem Shares.neg_le_credit {k : Nat} {running : Table Int} {places : List Nat}
    (shares : Shares candidates k running places) (pos : 0 < total candidates)
    {c : String × Int} (mem : c ∈ candidates) :
    -((candidates.length - 1 : Int) * total candidates) ≤ credit running c.1 := by
  have above := shares.above c mem
  have sum := shares.credit_add_others mem
  have count := List.length_erase_of_mem mem
  rcases Nat.lt_or_ge 1 candidates.length with several | single
  · have least : 1 * total candidates ≤ (candidates.length - 1 : Int) * total candidates :=
      Int.mul_le_mul_of_nonneg_right (by omega) pos.le
    omega
  · have alone : candidates.erase c = [] := List.eq_nil_of_length_eq_zero (by omega)
    rw [alone, List.map_nil, List.sum_nil, add_zero] at sum
    have one : candidates.length = 1 := by
      have := List.length_pos_of_mem mem
      omega
    simp [sum, one]

/-- After a full cycle a candidate is off its share by whole totals, so by none. -/
theorem Shares.credit_eq_zero {running : Table Int} {places : List Nat}
    (shares : Shares candidates (period candidates) running places) (pos : 0 < total candidates)
    {c : String × Int} (mem : c ∈ candidates) : credit running c.1 = 0 := by
  have nonneg : ∀ d ∈ candidates, 0 ≤ credit running d.1 := by
    intro d listed
    obtain ⟨i, found⟩ := List.mem_iff_getElem?.1 listed
    obtain ⟨u, weight⟩ := unit_dvd listed
    have share := shares.share i d found
    have above := shares.above d listed
    have whole : credit running d.1 = total candidates * (u - places.count i) := by
      rw [share, weight, mul_sub, ← unit_mul_period pos.le]
      ring
    rw [whole] at above ⊢
    have short : -1 < u - places.count i := by nlinarith
    exact mul_nonneg pos.le (by omega)
  have sum := shares.credit_add_others mem
  have others := List.sum_nonneg (l := (candidates.erase c).map fun d => credit running d.1)
    fun x among => by
      obtain ⟨d, listed, rfl⟩ := List.mem_map.1 among
      exact nonneg d (List.mem_of_mem_erase listed)
  have own := nonneg c mem
  omega

theorem Shares.count_eq {running : Table Int} {places : List Nat}
    (shares : Shares candidates (period candidates) running places) (pos : 0 < total candidates)
    {i : Nat} {c : String × Int} (found : candidates[i]? = some c) :
    (places.count i * unit candidates : Int) = c.2 := by
  have share := shares.share i c found
  rw [shares.credit_eq_zero pos (List.mem_of_getElem? found), ← unit_mul_period pos.le] at share
  have cycle : (period candidates : Int) ≠ 0 := by exact_mod_cast (period_pos pos).ne'
  refine mul_left_cancel₀ cycle ?_
  linarith

theorem turns_alike {r s : Rotation Int} (alike : Alike candidates r.running s.running) (k : Nat) :
    (r.turns candidates k).2 = (s.turns candidates k).2 ∧
      Alike candidates (r.turns candidates k).1.running (s.turns candidates k).1.running := by
  induction k with
  | zero => exact ⟨rfl, alike⟩
  | succ k ih =>
    have picked := pick_alike ih.2
    exact ⟨by rw [turns, turns, ih.1, picked.1], picked.2⟩

variable (distinct : (candidates.map Prod.fst).Nodup) (nonneg : ∀ c ∈ candidates, 0 ≤ c.2)
  (pos : 0 < total candidates)
include distinct nonneg pos

theorem turns_period (k : Nat) :
    (empty.turns candidates (period candidates + k)).2 =
      (empty.turns candidates (period candidates)).2 ++ (empty.turns candidates k).2 := by
  have shares := shares_turns distinct nonneg pos (period candidates)
  have settled : Alike candidates (empty.turns candidates (period candidates)).1.running
      empty.running := by
    intro c listed
    rw [shares.credit_eq_zero pos listed]
    rfl
  rw [turns_add, (turns_alike settled k).1]

theorem getElem?_turns_period {j k : Nat} (early : j < k) :
    (empty.turns candidates (period candidates + k)).2[period candidates + j]? =
      (empty.turns candidates (period candidates + k)).2[j]? := by
  have cycle := (shares_turns distinct nonneg pos (period candidates)).length
  have length := (shares_turns distinct nonneg pos k).length
  have later : (empty.turns candidates (period candidates + k)).2[period candidates + j]? =
      (empty.turns candidates k).2[j]? := by
    rw [turns_period distinct nonneg pos, List.getElem?_append_right (by omega), cycle,
      Nat.add_sub_cancel_left]
  have sooner : (empty.turns candidates (period candidates + k)).2[j]? =
      (empty.turns candidates k).2[j]? := by
    rw [Nat.add_comm, turns_add, List.getElem?_append_left (by omega)]
  rw [later, sooner]

theorem get?_turns_period {c : String × Int} (mem : c ∈ candidates) :
    (empty.turns candidates (period candidates)).1.running.get? c.1 = some 0 := by
  have ne : candidates ≠ [] := List.ne_nil_of_mem mem
  have zero := (shares_turns distinct nonneg pos (period candidates)).credit_eq_zero pos mem
  obtain ⟨k, last⟩ := Nat.exists_eq_add_one.2 (period_pos pos)
  rw [last, turns] at zero ⊢
  obtain ⟨place, address, won⟩ := exists_won (empty.turns candidates k).1 ne nonneg
  rw [won.get?_eq (List.mem_map_of_mem mem), zero]

end

end NodeSelection.Rotation
