import NodeSelection.Proofs.Rotation.Claims

/-! Running weights while the list of candidates changes from pick to pick. Pruning
forgets credit and debt, so the running weights no longer balance. Still any set of them
is off zero by no more than its number allows (`Steady`). A set gains only beside a winner
outside of it: a great claim of that winner pays for the gain, a small one bounds the
claim of every listed member. Debts are held down in the same way. -/

namespace NodeSelection

namespace Table

theorem length_keys {α : Type} (t : Table α) : t.keys.length = t.size := by
  rw [keys, List.length_map, size]

theorem mem_keys_iff {α : Type} {t : Table α} {k : String} :
    k ∈ t.keys ↔ ∃ v, t.get? k = some v := by
  rw [← get?_isSome, Option.isSome_iff_exists]

end Table

namespace Rotation
open Finset

def balance (running : Table Int) (addresses : Finset String) : Int :=
  ∑ address ∈ addresses, credit running address

/-- How far `count` out of `size` running weights may be off zero together, if no list of
candidates weighs more than `top`. -/
def drift (size top count : Int) : Int := top * (count * (2 * size - count))

/-- No set of running weights is off zero by more than its number allows. -/
def Steady (size : Nat) (top : Int) (running : Table Int) : Prop :=
  ∀ addresses : Finset String, addresses.card ≤ size →
    |balance running addresses| ≤ drift size top addresses.card

theorem Steady.le {size : Nat} {top : Int} {running : Table Int} (steady : Steady size top running)
    {addresses : Finset String} (few : addresses.card ≤ size) :
    balance running addresses ≤ drift size top addresses.card :=
  (abs_le.1 (steady addresses few)).2

theorem Steady.neg_le {size : Nat} {top : Int} {running : Table Int}
    (steady : Steady size top running) {addresses : Finset String} (few : addresses.card ≤ size) :
    -drift size top addresses.card ≤ balance running addresses :=
  (abs_le.1 (steady addresses few)).1

theorem drift_mono {size top count more : Int} (pos : 0 ≤ top) (le : count ≤ more)
    (fits : more ≤ size) : drift size top count ≤ drift size top more := by
  have gap : 0 ≤ (more - count) * (2 * size - more - count) :=
    mul_nonneg (by omega) (by omega)
  refine mul_le_mul_of_nonneg_left ?_ pos
  linarith

/-- One member more with a great claim, or all listed members gone. -/
theorem drift_gain (size top count listed : Int) :
    listed * (drift size top (count + 1) + top) + drift size top (count - listed) =
      (listed + 1) * drift size top count - listed ^ 2 * top := by
  simp only [drift]
  ring

/-- One member less with a small claim, or all listed others in. -/
theorem drift_loss (size top count others : Int) :
    drift size top (count + others) + others * (drift size top (count - 1) + top) =
      (others + 1) * drift size top count - others ^ 2 * top := by
  simp only [drift]
  ring

theorem le_drift_of_gain {size top count listed claim paid x : Int} (some : 0 ≤ listed)
    (pos : 0 ≤ top) (low : paid ≤ top) (great : x + (claim - paid) ≤ drift size top (count + 1))
    (small : x ≤ drift size top (count - listed) + listed * claim) :
    x ≤ drift size top count := by
  have both : (listed + 1) * x ≤
      listed * (drift size top (count + 1) + top) + drift size top (count - listed) := by
    have scaled := mul_le_mul_of_nonneg_left great some
    have paid := mul_le_mul_of_nonneg_left low some
    linarith
  have square : 0 ≤ listed ^ 2 * top := mul_nonneg (sq_nonneg listed) pos
  rw [drift_gain] at both
  refine le_of_mul_le_mul_left ?_ (show 0 < listed + 1 by omega)
  linarith

theorem neg_drift_le_of_loss {size top count others claim paid x : Int} (some : 0 ≤ others)
    (pos : 0 ≤ top) (low : paid ≤ top)
    (great : -drift size top (count - 1) + (claim - paid) ≤ x)
    (small : -drift size top (count + others) ≤ x + others * claim) :
    -drift size top count ≤ x := by
  have both : -(drift size top (count + others) + others * (drift size top (count - 1) + top)) ≤
      (others + 1) * x := by
    have scaled := mul_le_mul_of_nonneg_left great some
    have paid := mul_le_mul_of_nonneg_left low some
    linarith
  have square : 0 ≤ others ^ 2 * top := mul_nonneg (sq_nonneg others) pos
  rw [drift_loss] at both
  refine le_of_mul_le_mul_left ?_ (show 0 < others + 1 by omega)
  linarith

section
variable {candidates : List (String × Int)}

theorem demand_nonneg (nonneg : ∀ c ∈ candidates, 0 ≤ c.2) (address : String) :
    0 ≤ demand candidates address := by
  refine List.sum_nonneg fun w member => ?_
  obtain ⟨c, kept, rfl⟩ := List.mem_map.1 member
  exact nonneg c (List.mem_of_mem_filter kept)

theorem sum_demand_nonneg (nonneg : ∀ c ∈ candidates, 0 ≤ c.2) (addresses : Finset String) :
    0 ≤ ∑ address ∈ addresses, demand candidates address :=
  sum_nonneg fun address _ => demand_nonneg nonneg address

theorem sum_demand {addresses : Finset String}
    (all : ∀ c ∈ candidates, c.1 ∈ addresses) :
    ∑ address ∈ addresses, demand candidates address = total candidates := by
  induction candidates with
  | nil => simp [demand, total]
  | cons c rest ih =>
    have first := all c List.mem_cons_self
    have others := ih fun d later => all d (List.mem_cons_of_mem c later)
    simp only [demand_cons, sum_add_distrib, sum_ite_eq, if_pos first, others]
    simp [total]

theorem sum_demand_le (nonneg : ∀ c ∈ candidates, 0 ≤ c.2) (addresses : Finset String) :
    ∑ address ∈ addresses, demand candidates address ≤ total candidates := by
  have larger : addresses ⊆ addresses ∪ (candidates.map Prod.fst).toFinset := subset_union_left
  refine (sum_le_sum_of_subset_of_nonneg larger fun a _ _ => demand_nonneg nonneg a).trans ?_
  refine (sum_demand fun c listed => ?_).le
  exact mem_union_right _ (List.mem_toFinset.2 (List.mem_map_of_mem listed))

end

theorem size_prune_le {α : Type} (r : Rotation α) (candidates : List (String × α)) :
    (r.prune candidates).size ≤ candidates.length := by
  rw [prune]
  split
  · have kept : ((r.running.restrict fun address =>
        (candidates.map Prod.fst).contains address).keys) ⊆ candidates.map Prod.fst := by
      intro address member
      rw [Table.keys_restrict, List.mem_filter] at member
      exact List.contains_iff_mem.1 member.2
    rw [← Table.length_keys, ← List.length_map (f := Prod.fst)]
    exact (List.subperm_of_subset (Table.nodup _) kept).length_le
  · omega

theorem credit_of_not_mem {running : Table Int} {address : String}
    (absent : address ∉ running.keys) : credit running address = 0 := by
  rw [Table.mem_keys_iff, not_exists] at absent
  rw [credit, Option.eq_none_iff_forall_ne_some.2 absent, Option.getD_none]

def kept (r : Rotation Int) (candidates : List (String × Int)) : Finset String :=
  (r.pick candidates).1.running.keys.toFinset

section
variable {r : Rotation Int} {candidates : List (String × Int)} {place : Nat} {winner : String}
  (won : Won r candidates place winner)
include won

theorem Won.mem : winner ∈ candidates.map Prod.fst := by
  obtain ⟨weight, found⟩ := won.candidate
  exact List.mem_map_of_mem (f := Prod.fst) (List.mem_of_getElem? found)

theorem Won.mem_kept {address : String} : address ∈ r.kept candidates ↔
    address ∈ candidates.map Prod.fst ∨ address ∈ (r.prune candidates).keys := by
  rw [kept, List.mem_toFinset, Table.mem_keys_iff, Table.mem_keys_iff, won.running]
  by_cases same : address = winner
  · rw [if_pos same, same]
    simp [won.mem]
  · rw [if_neg same]
    split
    · rename_i listed
      simp [listed]
    · rename_i absent
      simp only [absent, false_or]

theorem Won.card_kept_le : (r.kept candidates).card ≤ 2 * candidates.length := by
  have within : r.kept candidates ⊆
      (candidates.map Prod.fst).toFinset ∪ (r.prune candidates).keys.toFinset := by
    intro address member
    rw [mem_union, List.mem_toFinset, List.mem_toFinset]
    exact won.mem_kept.1 member
  have few := size_prune_le r candidates
  have listed := List.toFinset_card_le (candidates.map Prod.fst)
  have stale := List.toFinset_card_le (r.prune candidates).keys
  rw [List.length_map] at listed
  rw [Table.length_keys] at stale
  have together := (card_le_card within).trans (card_union_le _ _)
  omega

theorem Won.credit_kept {address : String} (member : address ∈ r.kept candidates) :
    Rotation.credit (r.pick candidates).1.running address =
      claim r.running candidates address + if address = winner then -total candidates else 0 := by
  by_cases listed : address ∈ candidates.map Prod.fst
  · exact won.credit listed
  · have other : address ≠ winner := fun same => listed (same ▸ won.mem)
    obtain ⟨value, found⟩ := Table.mem_keys_iff.1 ((won.mem_kept.1 member).resolve_left listed)
    rw [Rotation.credit, won.running, if_neg other, if_neg listed, if_neg other, claim,
      demand_of_not_mem listed, Rotation.credit, get?_of_get?_prune found, found]
    simp

theorem Won.balance {addresses : Finset String} (within : addresses ⊆ r.kept candidates) :
    Rotation.balance (r.pick candidates).1.running addresses =
      Rotation.balance r.running addresses + ∑ address ∈ addresses, demand candidates address +
        if winner ∈ addresses then -total candidates else 0 := by
  have each : ∀ address ∈ addresses, Rotation.credit (r.pick candidates).1.running address =
      Rotation.credit r.running address + demand candidates address +
        if address = winner then -total candidates else 0 :=
    fun address member => won.credit_kept (within member)
  rw [Rotation.balance, sum_congr rfl each, sum_add_distrib, sum_add_distrib, sum_ite_eq',
    Rotation.balance]

theorem Won.balance_insert {addresses : Finset String} (outside : winner ∉ addresses) :
    Rotation.balance (r.pick candidates).1.running (insert winner addresses) =
      Rotation.balance (r.pick candidates).1.running addresses +
        (claim r.running candidates winner - total candidates) := by
  rw [Rotation.balance, sum_insert outside, won.credit won.mem, if_pos rfl, add_comm,
    ← sub_eq_add_neg, Rotation.balance]

theorem Won.balance_listed_le {addresses : Finset String} (outside : winner ∉ addresses)
    (listed : ∀ address ∈ addresses, address ∈ candidates.map Prod.fst) :
    Rotation.balance (r.pick candidates).1.running addresses ≤
      addresses.card * claim r.running candidates winner := by
  rw [← nsmul_eq_mul]
  refine sum_le_card_nsmul addresses _ _ fun address member => ?_
  rw [won.credit (listed address member), if_neg (ne_of_mem_of_not_mem member outside), add_zero]
  exact won.greatest address (listed address member)

theorem Won.balance_absent {addresses : Finset String} (within : addresses ⊆ r.kept candidates)
    (absent : ∀ address ∈ addresses, address ∉ candidates.map Prod.fst) :
    Rotation.balance (r.pick candidates).1.running addresses =
      Rotation.balance r.running addresses := by
  have outside : winner ∉ addresses := fun member => absent winner member won.mem
  have none := sum_congr (rfl : addresses = addresses) fun address member =>
    demand_of_not_mem (absent address member)
  rw [won.balance within, if_neg outside, none, sum_const_zero, add_zero, add_zero]

section
variable {size : Nat} {top : Int} (steady : Steady size top r.running)
  (nonneg : ∀ c ∈ candidates, 0 ≤ c.2) (low : total candidates ≤ top)
  (fits : (r.kept candidates).card ≤ size)
include steady nonneg low fits

theorem Won.balance_le {addresses : Finset String} (within : addresses ⊆ r.kept candidates) :
    Rotation.balance (r.pick candidates).1.running addresses ≤ drift size top addresses.card := by
  by_cases inside : winner ∈ addresses
  · have before := steady.le ((card_le_card within).trans fits)
    have gained := sum_demand_le nonneg addresses
    rw [won.balance within, if_pos inside]
    linarith
  -- With the winner the set gains nothing.
  have great : Rotation.balance (r.pick candidates).1.running addresses +
      (claim r.running candidates winner - total candidates) ≤
        drift size top (addresses.card + 1) := by
    have larger : insert winner addresses ⊆ r.kept candidates :=
      insert_subset (won.mem_kept.2 (Or.inl won.mem)) within
    have before := steady.le ((card_le_card larger).trans fits)
    have gained := sum_demand_le nonneg (insert winner addresses)
    rw [card_insert_of_notMem inside, Nat.cast_succ] at before
    rw [← won.balance_insert inside, won.balance larger, if_pos (mem_insert_self _ _)]
    linarith
  -- Its listed members claim no more than the winner each, and the others stay.
  let listed := addresses.filter (· ∈ candidates.map Prod.fst)
  let absent := addresses.filter (· ∉ candidates.map Prod.fst)
  have small : Rotation.balance (r.pick candidates).1.running addresses ≤
      drift size top (addresses.card - listed.card) +
        listed.card * claim r.running candidates winner := by
    have stay : absent ⊆ r.kept candidates := (filter_subset _ _).trans within
    have before := steady.le ((card_le_card stay).trans fits)
    have claims := won.balance_listed_le (fun member => inside (mem_filter.1 member).1)
      fun address member => (mem_filter.1 member : address ∈ addresses ∧ _).2
    have count : (absent.card : Int) = addresses.card - listed.card := by
      have split := card_filter_add_card_filter_not (s := addresses) (· ∈ candidates.map Prod.fst)
      simp only [listed, absent]
      omega
    rw [← won.balance_absent stay fun address member => (mem_filter.1 member).2, count] at before
    rw [Rotation.balance, ← sum_filter_add_sum_filter_not addresses (· ∈ candidates.map Prod.fst)]
    exact (add_le_add claims before).trans (add_comm _ _).le
  exact le_drift_of_gain (Int.natCast_nonneg _) ((total_nonneg nonneg).trans low) low great small

theorem Won.neg_drift_le_balance {addresses : Finset String}
    (within : addresses ⊆ r.kept candidates) :
    -drift size top addresses.card ≤
      Rotation.balance (r.pick candidates).1.running addresses := by
  by_cases inside : winner ∈ addresses
  case neg =>
    have before := steady.neg_le ((card_le_card within).trans fits)
    have gained := sum_demand_nonneg nonneg addresses
    rw [won.balance within, if_neg inside]
    linarith
  -- Without the winner the set loses nothing.
  have great : -drift size top (addresses.card - 1) +
      (claim r.running candidates winner - total candidates) ≤
        Rotation.balance (r.pick candidates).1.running addresses := by
    have smaller : addresses.erase winner ⊆ r.kept candidates := (erase_subset _ _).trans within
    have before := steady.neg_le ((card_le_card smaller).trans fits)
    have gained := sum_demand_nonneg nonneg (addresses.erase winner)
    rw [card_erase_of_mem inside, Nat.cast_pred (card_pos.2 ⟨winner, inside⟩)] at before
    rw [← insert_erase inside, won.balance_insert (notMem_erase _ _), won.balance smaller,
      if_neg (notMem_erase _ _), insert_erase inside]
    linarith
  -- With all listed addresses it neither gains nor loses, and each of them claims little.
  let others := (candidates.map Prod.fst).toFinset \ addresses
  have small : -drift size top (addresses.card + others.card) ≤
      Rotation.balance (r.pick candidates).1.running addresses +
        others.card * claim r.running candidates winner := by
    have listed : ∀ address ∈ others, address ∈ candidates.map Prod.fst :=
      fun address member => List.mem_toFinset.1 (mem_sdiff.1 member).1
    have all : addresses ∪ others ⊆ r.kept candidates :=
      union_subset within fun address member => won.mem_kept.2 (Or.inl (listed address member))
    have whole : ∑ address ∈ addresses ∪ others, demand candidates address =
        total candidates := by
      refine sum_demand fun c member => ?_
      rw [union_sdiff_self_eq_union]
      exact mem_union_right _ (List.mem_toFinset.2 (List.mem_map_of_mem member))
    have before := steady.neg_le ((card_le_card all).trans fits)
    have claims := won.balance_listed_le (fun member => (mem_sdiff.1 member).2 inside) listed
    have still := won.balance all
    rw [if_pos (mem_union_left _ inside), whole, add_assoc, add_neg_cancel, add_zero] at still
    rw [← still, card_union_of_disjoint disjoint_sdiff, Nat.cast_add, Rotation.balance,
      sum_union disjoint_sdiff] at before
    exact before.trans (add_le_add_right claims _)
  exact neg_drift_le_of_loss (Int.natCast_nonneg _) ((total_nonneg nonneg).trans low) low great
    small

end

theorem Won.steady {size : Nat} {top : Int} (steady : Steady size top r.running)
    (nonneg : ∀ c ∈ candidates, 0 ≤ c.2) (low : total candidates ≤ top)
    (fits : 2 * candidates.length ≤ size) : Steady size top (r.pick candidates).1.running := by
  intro addresses few
  have room := won.card_kept_le.trans fits
  let held := addresses.filter (· ∈ r.kept candidates)
  have within : held ⊆ r.kept candidates := fun address member => (mem_filter.1 member).2
  have same : Rotation.balance (r.pick candidates).1.running addresses =
      Rotation.balance (r.pick candidates).1.running held := by
    refine (sum_filter_of_ne fun address _ nonzero => ?_).symm
    by_contra absent
    exact nonzero (credit_of_not_mem fun member => absent (List.mem_toFinset.2 member))
  have bound := drift_mono ((total_nonneg nonneg).trans low)
    (Int.ofNat_le.2 (card_filter_le addresses (· ∈ r.kept candidates))) (Int.ofNat_le.2 few)
  rw [same]
  exact (abs_le.2 ⟨won.neg_drift_le_balance steady nonneg low room within,
    won.balance_le steady nonneg low room within⟩).trans bound

end

structure Modest (length weight : Nat) (candidates : List (String × Int)) : Prop where
  ne : candidates ≠ []
  short : candidates.length ≤ length
  weights : ∀ c ∈ candidates, 0 ≤ c.2 ∧ c.2 ≤ weight

theorem Modest.total_le {length weight : Nat} {candidates : List (String × Int)}
    (modest : Modest length weight candidates) : total candidates ≤ length * weight := by
  have each : ∀ w ∈ candidates.map Prod.snd, w ≤ (weight : Int) := fun w member => by
    obtain ⟨c, listed, rfl⟩ := List.mem_map.1 member
    exact (modest.weights c listed).2
  have sum := List.sum_le_card_nsmul _ _ each
  rw [List.length_map, nsmul_eq_mul] at sum
  exact sum.trans (mul_le_mul_of_nonneg_right (Int.ofNat_le.2 modest.short) (by omega))

theorem steady_empty (size : Nat) {top : Int} (pos : 0 ≤ top) : Steady size top Table.empty := by
  intro addresses few
  have none : balance Table.empty addresses = 0 := sum_eq_zero fun _ _ => rfl
  rw [none, abs_zero]
  exact mul_nonneg pos (mul_nonneg (by omega) (by omega))

theorem Steady.pick {length weight : Nat} {r : Rotation Int} {candidates : List (String × Int)}
    (steady : Steady (2 * length) (length * weight) r.running)
    (modest : Modest length weight candidates) :
    Steady (2 * length) (length * weight) (r.pick candidates).1.running := by
  have nonneg : ∀ c ∈ candidates, 0 ≤ c.2 := fun c listed => (modest.weights c listed).1
  obtain ⟨place, winner, won⟩ := exists_won r modest.ne nonneg
  have short := modest.short
  exact won.steady steady nonneg modest.total_le (by omega)

theorem Steady.abs_credit_le {length weight : Nat} {running : Table Int} (one : 1 ≤ length)
    (steady : Steady (2 * length) (length * weight) running) (address : String) :
    |credit running address| ≤ 4 * length ^ 2 * weight := by
  have alone := steady {address} (by rw [card_singleton]; omega)
  have spare : 0 ≤ (length * weight : Int) := by positivity
  rw [balance, sum_singleton, card_singleton, drift] at alone
  push_cast at alone
  linarith

theorem Steady.abs_le {length weight : Nat} {running : Table Int} (one : 1 ≤ length)
    (steady : Steady (2 * length) (length * weight) running) {address : String} {value : Int}
    (found : running.get? address = some value) : |value| ≤ 4 * length ^ 2 * weight := by
  have held : credit running address = value := by rw [credit, found, Option.getD_some]
  exact held ▸ steady.abs_credit_le one address

end Rotation
end NodeSelection
