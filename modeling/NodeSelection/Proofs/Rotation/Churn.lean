import NodeSelection.Proofs.Rotation.Drift
import NodeSelection.Proofs.Rotation.Serving

/-! A rotation that gets other candidates with every request. Its running weights stay
whole and bounded, however often addresses leave, come back or change their weight, so
doubles compute them without loss for ever. -/

namespace NodeSelection

structure Request where
  pool : Pool
  places : List Nat
  now : Int
  draw : Draw

namespace Request

structure Lists (r : Request) (candidates : List (String × Int)) : Prop where
  addresses : r.places.map r.pool.address = candidates.map Prod.fst
  weights : (r.pool.weighAll r.now r.places).1 = candidates.map fun c => Binary64.ofInt c.2

def offers (r : Request) : List (String × Float) :=
  (r.places.map r.pool.address).zip (r.pool.weighAll r.now r.places).1

theorem fst_offers (r : Request) : r.offers.map Prod.fst = r.places.map r.pool.address :=
  List.map_fst_zip (by simp)

theorem length_offers (r : Request) : r.offers.length = r.places.length := by
  rw [← List.length_map (f := Prod.fst), fst_offers, List.length_map]

theorem exists_place {r : Request} {i : Nat} {offer : String × Float}
    (offered : r.offers[i]? = some offer) :
    ∃ place, r.places[i]? = some place ∧ r.pool.address place = offer.1 := by
  have named := congrArg (Option.map Prod.fst) offered
  rwa [← List.getElem?_map, r.fst_offers, List.getElem?_map, Option.map_some,
    Option.map_eq_some_iff] at named

theorem Lists.offers_eq {r : Request} {candidates : List (String × Int)}
    (listed : r.Lists candidates) : r.offers = Rotation.doubles candidates := by
  rw [offers, listed.addresses, listed.weights]
  exact List.zip_map'

def fixed (defaultWeight now : Int) (draw : Draw) (nodes : List Node) : Request :=
  ⟨(Wrapping.fixed defaultWeight).pool nodes, ((Wrapping.fixed defaultWeight).pool nodes).places,
    now, draw⟩

theorem lists_fixed (defaultWeight now : Int) (draw : Draw) (nodes : List Node) :
    (fixed defaultWeight now draw nodes).Lists
      (nodes.map fun n => (n.address, n.staticWeight defaultWeight)) := by
  have offered := Wrapping.offers_pool defaultWeight nodes
  refine ⟨offered.addresses, ?_⟩
  rw [fixed, offered.weighAll offered.places_offers]

end Request

namespace Rotation
variable {α : Type} [Add α] [Sub α] [Zero α] [LT α] [DecidableLT α]

def through (r : Rotation α) (lists : List (List (String × α))) : Rotation α :=
  lists.foldl (fun r candidates => (r.pick candidates).1) r

theorem pick_doubles {length weight : Nat} (fits : (4 * length ^ 2 + length) * weight < 2 ^ 53)
    {r : Rotation Int} {candidates : List (String × Int)}
    (steady : Steady (2 * length) (length * weight) r.running)
    (modest : Modest length weight candidates) :
    (r.map Binary64.ofInt).pick (doubles candidates) =
      ((r.pick candidates).1.map Binary64.ofInt, (r.pick candidates).2) := by
  have one : 1 ≤ length := (List.length_pos_iff.2 modest.ne).trans_le modest.short
  have total := modest.total_le
  have exact : (4 * length ^ 2 * weight + length * weight : Int) < 2 ^ 53 := by
    have cast : (((4 * length ^ 2 + length) * weight : Nat) : Int) < 2 ^ 53 := by
      exact_mod_cast fits
    push_cast at cast
    linarith
  have room : (0 : Int) ≤ 4 * length ^ 2 * weight := by positivity
  refine pick_map room (fun address value found => ?_)
    (fun c listed => (modest.weights c listed).1) (by linarith)
  exact abs_le.1 (steady.abs_le one found)

theorem steady_through {length weight : Nat} {r : Rotation Int}
    (steady : Steady (2 * length) (length * weight) r.running)
    {lists : List (List (String × Int))} (modest : ∀ l ∈ lists, Modest length weight l) :
    Steady (2 * length) (length * weight) (r.through lists).running := by
  induction lists generalizing r with
  | nil => exact steady
  | cons candidates rest ih =>
    exact ih (steady.pick (modest _ List.mem_cons_self)) fun l later =>
      modest l (List.mem_cons_of_mem _ later)

theorem abs_le_of_through {length weight : Nat} {lists : List (List (String × Int))}
    (modest : ∀ l ∈ lists, Modest length weight l) {address : String} {value : Int}
    (found : ((empty : Rotation Int).through lists).running.get? address = some value) :
    |value| ≤ 4 * length ^ 2 * weight := by
  cases lists with
  | nil => cases found
  | cons candidates rest =>
    have first := modest _ List.mem_cons_self
    have one : 1 ≤ length := (List.length_pos_iff.2 first.ne).trans_le first.short
    have steady := steady_through (steady_empty (2 * length) (by positivity)) modest
    exact steady.abs_le one found

end Rotation

namespace Balancer
open Rotation

/-- The balancer after it has answered some requests, each with candidates of its own. -/
def answer (b : Balancer) (requests : List Request) : Except SelectionError Balancer :=
  requests.foldlM (fun b r => (b.pick r.pool r.places r.now r.draw).map Pick.balancer) b

theorem exists_pick_rotation (state : Rotation Float) {r : Request} (ne : r.places ≠ []) :
    ∃ p, (rotation state).pick r.pool r.places r.now r.draw = .ok p ∧
      p.balancer = .rotation (state.pick r.offers).1 ∧
      ∀ i place, (state.pick r.offers).2 = some i → r.places[i]? = some place →
        p.place = place := by
  obtain ⟨first, rest, every⟩ := List.exists_cons_of_ne_nil ne
  refine ⟨register (chooseByRotation state r.pool first rest r.now) r.now, ?_, ?_, ?_⟩
  · rw [every, pick, choose]
  · rw [Request.offers, every]
    rfl
  · intro i place chosen found
    rw [Request.offers, every] at chosen
    rw [every] at found
    simp only [register, chooseByRotation, chosen, Option.getD_some, atOr, found]

theorem pick_rotation {state : Rotation Float} {r : Request} {candidates : List (String × Int)}
    (listed : r.Lists candidates) (ne : candidates ≠ []) :
    (((rotation state).pick r.pool r.places r.now r.draw).map Pick.balancer) =
      .ok (.rotation (state.pick (doubles candidates)).1) := by
  have some : r.places ≠ [] := by
    intro none
    have addresses := listed.addresses
    rw [none] at addresses
    exact ne (List.map_eq_nil_iff.1 addresses.symm)
  obtain ⟨p, picked, balancer, _⟩ := exists_pick_rotation state some
  rw [picked, ← listed.offers_eq, ← balancer]
  rfl

theorem answer_rotation {length weight : Nat}
    (fits : (4 * length ^ 2 + length) * weight < 2 ^ 53) {requests : List Request}
    {lists : List (List (String × Int))} (listed : List.Forall₂ Request.Lists requests lists)
    (modest : ∀ l ∈ lists, Modest length weight l) {r : Rotation Int}
    (steady : Steady (2 * length) (length * weight) r.running) :
    (rotation (r.map Binary64.ofInt)).answer requests =
      .ok (.rotation ((r.through lists).map Binary64.ofInt)) := by
  induction listed generalizing r with
  | nil => rfl
  | @cons request candidates requests rest first others ih =>
    -- Steady whole numbers are small enough for this pick, and it leaves them steady.
    have now := modest candidates List.mem_cons_self
    have next := ih (fun l later => modest l (List.mem_cons_of_mem _ later)) (steady.pick now)
    rw [answer, List.foldlM_cons, pick_rotation first now.ne, pick_doubles fits steady now]
    exact next

/-- Whatever the candidates of each request are, every running weight that is left afterwards, also
of an absent address, is the whole number of exact arithmetic and off zero by no more than
`4 * length ^ 2` times the greatest weight. -/
theorem answer_bounded {length weight : Nat}
    (fits : (4 * length ^ 2 + length) * weight < 2 ^ 53) {requests : List Request}
    {lists : List (List (String × Int))} (listed : List.Forall₂ Request.Lists requests lists)
    (modest : ∀ l ∈ lists, Modest length weight l) :
    ∃ state, (rotation Rotation.empty).answer requests = .ok (.rotation state) ∧
      state = ((Rotation.empty : Rotation Int).through lists).map Binary64.ofInt ∧
      ∀ address value, state.running.get? address = some value →
        ∃ whole : Int, value = Binary64.ofInt whole ∧ |whole| ≤ 4 * length ^ 2 * weight := by
  have begun : (Rotation.empty : Rotation Float) =
      (Rotation.empty : Rotation Int).map Binary64.ofInt := rfl
  have steady := steady_empty (2 * length) (show 0 ≤ (length * weight : Int) by positivity)
  refine ⟨_, ?_, rfl, fun address value found => ?_⟩
  · rw [begun]
    exact answer_rotation fits listed modest steady
  · rw [Rotation.map, Table.get?_map, Option.map_eq_some_iff] at found
    obtain ⟨whole, found, rfl⟩ := found
    exact ⟨whole, rfl, abs_le_of_through modest found⟩

/-- An address keeps its credit while it is absent, and another is forgotten with its debt. -/
theorem answer_bounded_three_addresses :
    ∃ state, (rotation Rotation.empty).answer
        [.fixed 100 1 default [Node.weighing "a" 3, Node.weighing "b" 1],
          .fixed 100 2 default [Node.weighing "a" 1, Node.weighing "c" 2],
          .fixed 100 3 default [Node.weighing "b" 0, Node.weighing "a" 2]] =
            .ok (.rotation state) ∧
      ∀ address value, state.running.get? address = some value →
        ∃ whole : Int, value = Binary64.ofInt whole ∧ |whole| ≤ 48 := by
  have modest : ∀ l ∈ [[("a", (3 : Int)), ("b", 1)], [("a", 1), ("c", 2)], [("b", 0), ("a", 2)]],
      Modest 2 3 l := by
    simp only [List.forall_mem_cons, List.not_mem_nil, false_implies, implies_true, and_true]
    exact ⟨⟨by decide, by decide, by decide⟩, ⟨by decide, by decide, by decide⟩,
      ⟨by decide, by decide, by decide⟩⟩
  obtain ⟨state, answered, _, bounded⟩ := answer_bounded (by decide)
    (.cons (Request.lists_fixed 100 1 default [Node.weighing "a" 3, Node.weighing "b" 1])
      (.cons (Request.lists_fixed 100 2 default [Node.weighing "a" 1, Node.weighing "c" 2])
        (.cons (Request.lists_fixed 100 3 default [Node.weighing "b" 0, Node.weighing "a" 2]) .nil)))
    modest
  exact ⟨state, answered, bounded⟩

end Balancer
end NodeSelection
