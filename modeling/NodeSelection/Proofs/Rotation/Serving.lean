import NodeSelection.Balancer
import NodeSelection.Proofs.Rotation.Exact
import NodeSelection.Proofs.Rotation.Fairness

/-! Serving requests by rotation. The candidates have whole weights that never change,
small enough that the running weights are exact. Then every request is served, and the
places that serve are those of the rotation on whole numbers. -/

namespace NodeSelection

def Candidate.Offers (c : Candidate) (offer : String × Int) : Prop :=
  ∃ node defaultWeight lastPick, c = .fixed node defaultWeight lastPick ∧
    node.address = offer.1 ∧ node.staticWeight defaultWeight = offer.2

namespace Pool

structure Offers (p : Pool) (offers : List (String × Int)) : Prop where
  size : p.size = offers.length
  offer : ∀ (place : Nat) (o : String × Int), offers[place]? = some o →
    ∃ c, p.get? place = some c ∧ c.Offers o

end Pool

def Node.weighing (address : String) (weight : Int) : Node :=
  { Node.bare "http" address with initialWeight := some weight }

theorem Wrapping.offers_pool (defaultWeight : Int) (nodes : List Node) :
    ((Wrapping.fixed defaultWeight).pool nodes).Offers
      (nodes.map fun n => (n.address, n.staticWeight defaultWeight)) := by
  refine ⟨by simp, fun place o listed => ?_⟩
  rw [List.getElem?_map, Option.map_eq_some_iff] at listed
  obtain ⟨n, found, rfl⟩ := listed
  refine ⟨.fixed n defaultWeight 0, ?_, n, defaultWeight, 0, rfl, rfl, rfl⟩
  rw [pool, Pool.get?, List.getElem?_map, found]
  rfl

namespace Pool.Offers
variable {p : Pool} {offers : List (String × Int)}

theorem address (offered : p.Offers offers) {place : Nat} {o : String × Int}
    (listed : offers[place]? = some o) : p.address place = o.1 := by
  obtain ⟨c, here, node, _, _, rfl, same, _⟩ := offered.offer place o listed
  rw [Pool.address, here]
  exact same

theorem weigh (offered : p.Offers offers) {place : Nat} {o : String × Int}
    (listed : offers[place]? = some o) (now : Int) :
    p.weigh place now = (Binary64.ofInt o.2, p) := by
  obtain ⟨c, here, node, _, _, rfl, _, same⟩ := offered.offer place o listed
  rw [Pool.weigh, here]
  dsimp only [Candidate.weigh]
  rw [set_self here, same]
  rfl

theorem weighAll (offered : p.Offers offers) {places : List Nat} {listed : List (String × Int)}
    (found : places.map (fun place => offers[place]?) = listed.map some) (now : Int) :
    p.weighAll now places = (listed.map fun o => Binary64.ofInt o.2, p) := by
  induction places generalizing listed with
  | nil =>
    have none : listed = [] := by simpa using found.symm
    rw [none]
    rfl
  | cons place rest ih =>
    cases listed with
    | nil => cases found
    | cons o others =>
      rw [List.map_cons, List.map_cons, List.cons.injEq] at found
      rw [Pool.weighAll, offered.weigh found.1, ih found.2]
      rfl

theorem places_offers (offered : p.Offers offers) :
    p.places.map (fun place => offers[place]?) = offers.map some := by
  refine List.ext_getElem (by simp [places, offered.size]) fun place inside _ => ?_
  simp only [places, offered.size, List.length_map, List.length_range] at inside
  simp [places, inside]

theorem addresses (offered : p.Offers offers) : p.places.map p.address = offers.map Prod.fst := by
  refine List.ext_getElem (by simp [places, offered.size]) fun place inside _ => ?_
  simp only [places, offered.size, List.length_map, List.length_range] at inside
  simpa [places] using offered.address (List.getElem?_eq_getElem inside)

theorem pick (offered : p.Offers offers) {place : Nat} {o : String × Int}
    (listed : offers[place]? = some o) (now : Int) :
    (p.pick place now).2 = 0 ∧ (p.pick place now).1.Offers offers := by
  obtain ⟨c, here, node, defaultWeight, lastPick, rfl, address, weight⟩ :=
    offered.offer place o listed
  have inside : place < p.size := (List.getElem?_eq_some_iff.1 here).1
  have picked : p.pick place now = (p.set place (.fixed node defaultWeight now), 0) := by
    rw [Pool.pick, here]
    rfl
  rw [picked]
  refine ⟨rfl, by rw [size_set, offered.size], fun other d found => ?_⟩
  by_cases same : place = other
  · subst same
    rw [found, Option.some.injEq] at listed
    subst listed
    exact ⟨_, get?_set_self inside _, node, defaultWeight, now, rfl, address, weight⟩
  · rw [get?_set_of_ne p same]
    exact offered.offer other d found

end Pool.Offers

open Rotation

theorem Pool.Offers.pick_rotation {p : Pool} {offers : List (String × Int)}
    (offered : p.Offers offers) {state after : Rotation Float} {place : Nat}
    (turn : state.pick (doubles offers) = (after, some place)) (inside : place < offers.length)
    (now : Int) (draw : Draw) :
    ∃ q : Pool, q.Offers offers ∧
      (Balancer.rotation state).pick p p.places now draw =
        .ok ⟨.rotation after, q, place, 0, []⟩ := by
  have weighed := offered.weighAll offered.places_offers now
  have listed : p.places[place]? = some place := by
    simp [Pool.places, offered.size, inside]
  obtain ⟨number, still⟩ := offered.pick (List.getElem?_eq_getElem inside) now
  have zipped : (offers.map Prod.fst).zip (offers.map fun o => Binary64.ofInt o.2) =
      doubles offers := List.zip_map'
  refine ⟨_, still, ?_⟩
  cases every : p.places with
  | nil =>
    rw [every] at listed
    cases listed
  | cons first rest =>
    have chosen : Balancer.chooseByRotation state p first rest now =
        ⟨.rotation after, p, place, []⟩ := by
      rw [Balancer.chooseByRotation]
      simp only [← every]
      rw [weighed, offered.addresses, zipped, turn]
      simp [Balancer.atOr, ← every, listed]
    simp only [Balancer.pick, Balancer.choose, chosen, Balancer.register, number]

structure Service where
  balancer : Balancer
  pool : Pool
  places : List Nat

namespace Service

def begun (balancer : Balancer) (pool : Pool) : Service := ⟨balancer, pool, []⟩

def next (s : Service) (request : Int × Draw) : Except SelectionError Service := do
  let p ← s.balancer.pick s.pool s.pool.places request.1 request.2
  return ⟨p.balancer, p.pool, s.places ++ [p.place]⟩

def serve (s : Service) (requests : List (Int × Draw)) : Except SelectionError Service :=
  requests.foldlM next s

/-- A service that has followed the rotation on whole numbers for `k` requests. -/
structure Follows (offers : List (String × Int)) (k : Nat) (s : Service) : Prop where
  balancer : s.balancer = .rotation ((empty.turns offers k).1.map Binary64.ofInt)
  pool : s.pool.Offers offers
  places : s.places = (empty.turns offers k).2

theorem follows_begun {p : Pool} {offers : List (String × Int)} (offered : p.Offers offers) :
    Follows offers 0 (begun (.rotation empty) p) := ⟨rfl, offered, rfl⟩

section
variable {offers : List (String × Int)} (distinct : (offers.map Prod.fst).Nodup)
  (nonneg : ∀ o ∈ offers, 0 ≤ o.2) (pos : 0 < total offers)
  (fits : offers.length * total offers < 2 ^ 53)
include distinct nonneg pos fits

theorem Follows.next {k : Nat} {s : Service} (follows : Follows offers k s)
    (request : Int × Draw) :
    ∃ after, s.next request = .ok after ∧ Follows offers (k + 1) after := by
  have ne : offers ≠ [] := by
    rintro rfl
    exact absurd pos (by decide)
  have shares := shares_turns distinct nonneg pos k
  obtain ⟨place, address, won⟩ := exists_won (empty.turns offers k).1 ne nonneg
  have several : 1 ≤ offers.length := List.length_pos_iff.2 ne
  have bound : 0 ≤ (offers.length - 1 : Int) * total offers := mul_nonneg (by omega) pos.le
  have bounded : ∀ other value, (empty.turns offers k).1.running.get? other = some value →
      -((offers.length - 1 : Int) * total offers) ≤ value ∧
        value ≤ (offers.length - 1 : Int) * total offers := by
    intro other value found
    obtain ⟨o, listed, rfl⟩ := List.mem_map.1 (shares.listed other value found)
    have held : credit (empty.turns offers k).1.running o.1 = value := by
      rw [credit, found, Option.getD_some]
    rw [← held]
    exact ⟨shares.neg_le_credit pos listed, shares.credit_le listed⟩
  -- The running weights stay within what the other candidates may have been given ahead.
  have turn := pick_map bound bounded nonneg (by linarith)
  rw [won.chosen] at turn
  obtain ⟨q, offered, picked⟩ :=
    follows.pool.pick_rotation turn won.place_lt request.1 request.2
  refine ⟨⟨.rotation _, q, s.places ++ [place]⟩, ?_, rfl, offered, ?_⟩
  · rw [Service.next, follows.balancer, picked]
    rfl
  · rw [follows.places, turns, won.chosen]
    rfl

theorem Follows.serve {k : Nat} {s : Service} (follows : Follows offers k s)
    (requests : List (Int × Draw)) :
    ∃ after, s.serve requests = .ok after ∧ Follows offers (k + requests.length) after := by
  induction requests generalizing k s with
  | nil => exact ⟨s, rfl, follows⟩
  | cons request rest ih =>
    obtain ⟨first, served, followed⟩ := follows.next distinct nonneg pos fits request
    obtain ⟨after, done, last⟩ := ih followed
    refine ⟨after, ?_, ?_⟩
    · rw [Service.serve, List.foldlM_cons, served]
      exact done
    · rwa [List.length_cons, ← Nat.add_assoc, Nat.add_right_comm]

theorem serve_rotation {p : Pool} (offered : p.Offers offers) (requests : List (Int × Draw)) :
    ∃ after, (begun (.rotation empty) p).serve requests = .ok after ∧
      after.balancer =
        .rotation ((empty.turns offers requests.length).1.map Binary64.ofInt) ∧
      after.places = (empty.turns offers requests.length).2 := by
  obtain ⟨after, served, follows⟩ :=
    (follows_begun offered).serve distinct nonneg pos fits requests
  rw [Nat.zero_add] at follows
  exact ⟨after, served, follows.balancer, follows.places⟩

end

section
variable {p : Pool} {offers : List (String × Int)}

/-- Over a full cycle every candidate serves in proportion to its weight and all running weights
return to zero; from there on the places repeat. -/
theorem serve_full_cycle (offered : p.Offers offers) (distinct : (offers.map Prod.fst).Nodup)
    (nonneg : ∀ o ∈ offers, 0 ≤ o.2) (pos : 0 < total offers)
    (fits : offers.length * total offers < 2 ^ 53) (requests : List (Int × Draw)) :
    ∃ after, (begun (.rotation empty) p).serve requests = .ok after ∧
      after.places.length = requests.length ∧
      (requests.length = period offers →
        (∃ state, after.balancer = .rotation state ∧ ∀ address,
          state.running.get? address =
            if address ∈ offers.map Prod.fst then some 0 else none) ∧
        ∀ (place : Nat) (o : String × Int), offers[place]? = some o →
          (after.places.count place : Int) = o.2 / unit offers) ∧
      ∀ k, k + period offers < requests.length →
        after.places[k + period offers]? = after.places[k]? := by
  obtain ⟨after, served, balancer, places⟩ :=
    serve_rotation distinct nonneg pos fits offered requests
  refine ⟨after, served, ?_, fun full => ⟨⟨_, balancer, fun address => ?_⟩, ?_⟩, fun k late => ?_⟩
  · rw [places, (shares_turns distinct nonneg pos requests.length).length]
  · rw [full, Rotation.map, Table.get?_map]
    have shares := shares_turns distinct nonneg pos (period offers)
    split
    · rename_i member
      obtain ⟨o, listed, rfl⟩ := List.mem_map.1 member
      have held := get?_turns_period distinct nonneg pos listed
      rw [held, Option.map_some, Binary64.ofInt_zero]
    · rename_i absent
      rw [Option.map_eq_none_iff, Option.eq_none_iff_forall_ne_some]
      exact fun value found => absent (shares.listed address value found)
  · intro place o listed
    have shares := shares_turns distinct nonneg pos (period offers)
    rw [places, full]
    refine (Int.ediv_eq_of_eq_mul_left ?_ (shares.count_eq pos listed).symm).symm
    exact_mod_cast (unit_pos pos).ne'
  · obtain ⟨rest, length⟩ := Nat.exists_eq_add_of_le (show period offers ≤ requests.length by omega)
    rw [places, length, Nat.add_comm k]
    exact getElem?_turns_period distinct nonneg pos (by omega)

theorem serve_full_cycle_five_one_one :
    ∃ after, (begun (.rotation empty) ((Wrapping.fixed 100).pool
        [Node.weighing "a" 5, Node.weighing "b" 1, Node.weighing "c" 1])).serve
          (List.replicate 7 (1, default)) = .ok after ∧
      after.places.count 0 = 5 ∧ after.places.count 1 = 1 ∧ after.places.count 2 = 1 := by
  obtain ⟨after, served, _, cycle, _⟩ := serve_full_cycle
    (Wrapping.offers_pool 100 [Node.weighing "a" 5, Node.weighing "b" 1, Node.weighing "c" 1])
    (by decide) (by decide) (by decide) (by decide) (List.replicate 7 (1, default))
  have counts := (cycle (by decide)).2
  have first : (after.places.count 0 : Int) = 5 := counts 0 _ rfl
  have second : (after.places.count 1 : Int) = 1 := counts 1 _ rfl
  have third : (after.places.count 2 : Int) = 1 := counts 2 _ rfl
  exact ⟨after, served, Int.ofNat_inj.1 first, Int.ofNat_inj.1 second, Int.ofNat_inj.1 third⟩

/-- No candidate is ever a whole request ahead of its share, or further behind it than there are
other candidates. Without weight it never serves. -/
theorem serve_fair (offered : p.Offers offers) (distinct : (offers.map Prod.fst).Nodup)
    (nonneg : ∀ o ∈ offers, 0 ≤ o.2) (pos : 0 < total offers)
    (fits : offers.length * total offers < 2 ^ 53) (requests : List (Int × Draw)) :
    ∃ after, (begun (.rotation empty) p).serve requests = .ok after ∧
      after.places.length = requests.length ∧
      ∀ (place : Nat) (o : String × Int), offers[place]? = some o →
        requests.length * o.2 - (offers.length - 1 : Int) * total offers ≤
            total offers * after.places.count place ∧
          total offers * after.places.count place < requests.length * o.2 + total offers ∧
          (o.2 = 0 → after.places.count place = 0) := by
  obtain ⟨after, served, _, places⟩ := serve_rotation distinct nonneg pos fits offered requests
  have shares := shares_turns distinct nonneg pos requests.length
  refine ⟨after, served, by rw [places, shares.length], fun place o listed => ?_⟩
  have share := shares.share place o listed
  have above := shares.above o (List.mem_of_getElem? listed)
  have below := shares.credit_le (List.mem_of_getElem? listed)
  rw [← places] at share
  refine ⟨by linarith, by linarith, fun weightless => ?_⟩
  rw [share, weightless, mul_zero, zero_sub, neg_lt_neg_iff] at above
  have few : (after.places.count place : Int) < 1 := by nlinarith
  omega

theorem serve_fair_three_nothing_one :
    ∃ after, (begun (.rotation empty) ((Wrapping.fixed 100).pool
        [Node.weighing "a" 3, Node.weighing "b" 0, Node.weighing "c" 1])).serve
          (List.replicate 6 (1, default)) = .ok after ∧
      after.places.count 1 = 0 ∧ after.places.count 2 < 3 := by
  obtain ⟨after, served, _, fair⟩ := serve_fair
    (Wrapping.offers_pool 100 [Node.weighing "a" 3, Node.weighing "b" 0, Node.weighing "c" 1])
    (by decide) (by decide) (by decide) (by decide) (List.replicate 6 (1, default))
  have third : (4 * after.places.count 2 : Int) < 6 * 1 + 4 := (fair 2 _ rfl).2.1
  exact ⟨after, served, (fair 1 _ rfl).2.2 rfl, by omega⟩

end

end Service
end NodeSelection
