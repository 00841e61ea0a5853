import NodeSelection.Proofs.Rotation.Churn
import NodeSelection.Proofs.Session.Served

/-! A selector that rotates, in the course of a session. What it selects is decided by its map of
running weights and by the addresses and weights in force when it selects. Nothing else
that happens to it reaches the map, so two runs that select from the same lists select
the same addresses. -/

namespace NodeSelection

namespace Rotation
variable {α : Type} [Add α] [LT α] [DecidableLT α]

def Pass.Led (p : Pass α) : Prop := ∃ l, p.leader = some l ∧ l.position < p.position

theorem Pass.led_visit {p : Pass α} (led : p.leader = none ∨ p.Led) (c : String × α) :
    (p.visit c).Led := by
  refine ⟨_, rfl, ?_⟩
  rw [visit, challenge]
  rcases led with none | ⟨l, led, before⟩
  · rw [none]
    exact Nat.lt_succ_self _
  · rw [led]
    dsimp only
    split
    · exact Nat.lt_succ_self _
    · exact Nat.lt_succ_of_lt before

theorem Pass.led_foldl {p : Pass α} (led : p.Led) (rest : List (String × α)) :
    (rest.foldl Pass.visit p).Led := by
  induction rest generalizing p with
  | nil => exact led
  | cons c rest ih => exact ih (led_visit (Or.inr led) c)

theorem Pass.position_foldl (p : Pass α) (rest : List (String × α)) :
    (rest.foldl Pass.visit p).position = p.position + rest.length := by
  induction rest generalizing p with
  | nil => rfl
  | cons c rest ih =>
    have one : (p.visit c).position = p.position + 1 := rfl
    rw [List.foldl_cons, ih, List.length_cons, one, Nat.add_assoc, Nat.add_comm 1]

variable [Sub α] [Zero α]

theorem exists_place (r : Rotation α) {candidates : List (String × α)} (ne : candidates ≠ []) :
    ∃ place < candidates.length, (r.pick candidates).2 = some place := by
  cases candidates with
  | nil => exact absurd rfl ne
  | cons c rest =>
    obtain ⟨l, led, before⟩ : (r.pass (c :: rest)).Led :=
      Pass.led_foldl (Pass.led_visit (Or.inl rfl) c) rest
    have position : (r.pass (c :: rest)).position = 0 + (c :: rest).length :=
      Pass.position_foldl _ _
    refine ⟨l.position, by omega, ?_⟩
    rw [pick_eq ne led]

end Rotation

def Node.offer (defaultWeight : Int) (n : Node) : String × Int :=
  (n.address, n.staticWeight defaultWeight)

theorem Pool.Offers.complete {p : Pool} {offers : List (String × Int)} (offered : p.Offers offers)
    (place number : Nat) (now : Int) (outcome : Outcome) (journal : Journal) :
    (p.complete place number now outcome journal).1 = p := by
  rw [Pool.complete]
  cases here : p.get? place with
  | none => rfl
  | some c =>
    have inside : place < offers.length := offered.size ▸ (List.getElem?_eq_some_iff.1 here).1
    obtain ⟨d, there, node, _, _, rfl, _⟩ := offered.offer place _ (List.getElem?_eq_getElem inside)
    rw [here, Option.some.injEq] at there
    subst there
    exact set_self here

namespace Selector

structure Rotates (defaultWeight : Int) (state : Rotation Float) (s : Selector) : Prop where
  wrapping : s.wrapping = .fixed defaultWeight
  balancer : s.balancer = .rotation state
  pool : s.pool.Offers (s.pool.nodes.map (Node.offer defaultWeight))

section
variable {defaultWeight : Int} {state : Rotation Float} {s : Selector}
  (rotates : s.Rotates defaultWeight state)
include rotates

theorem Rotates.apply (nodes : List Node) : (s.apply nodes).1.Rotates defaultWeight state := by
  refine ⟨rotates.wrapping, rotates.balancer, ?_⟩
  rw [Selector.apply, rotates.wrapping, Pool.nodes_pool]
  exact Wrapping.offers_pool defaultWeight nodes

theorem Rotates.complete (ticket : Ticket) (now : Int) (outcome : Outcome) (journal : Journal) :
    (s.complete ticket now outcome journal).selector.Rotates defaultWeight state := by
  rw [Selector.complete]
  cases found : s.generationPool? ticket.generation with
  | none => exact rotates
  | some pool =>
    dsimp only
    rw [setGenerationPool]
    rw [generationPool?] at found
    split
    · rename_i current
      rw [if_pos current, Option.some.injEq] at found
      rw [← found, rotates.pool.complete]
      exact rotates
    · exact ⟨rotates.wrapping, rotates.balancer, rotates.pool⟩

theorem Rotates.weights (now : Int) : (s.weights now).2.Rotates defaultWeight state := by
  rw [Selector.weights, rotates.pool.weighAll rotates.pool.places_offers]
  exact rotates

theorem Rotates.select {context : CallContext} {now : Int} {draw : Draw} {node : Node}
    {ticket : Ticket} (result : (s.select context now draw).result = .ok (node, ticket)) :
    let turn := state.pick (Rotation.doubles (s.pool.nodes.map (Node.offer defaultWeight)))
    (s.select context now draw).selector.Rotates defaultWeight turn.1 ∧
      turn.2 = some ticket.place ∧ s.pool.nodes[ticket.place]? = some node := by
  intro turn
  have some : s.pool.nodes ≠ [] := fun none => by
    rw [select_of_nodes_eq_nil none] at result
    cases result
  have listed : Rotation.doubles (s.pool.nodes.map (Node.offer defaultWeight)) ≠ [] := by
    simpa [Rotation.doubles] using some
  obtain ⟨place, inside, chosen⟩ := state.exists_place listed
  obtain ⟨q, offered, picked⟩ := rotates.pool.pick_rotation
    (show turn = (turn.1, .some place) by rw [← chosen])
    (by simpa [Rotation.doubles] using inside) now draw
  rw [← rotates.balancer] at picked
  have nodes := s.nodes_select context now draw
  rw [Selector.select, picked] at result nodes ⊢
  cases here : q.get? place with
  | none =>
    simp only [here] at result
    cases result
  | some c =>
    simp only [here] at result nodes ⊢
    cases result
    refine ⟨⟨rotates.wrapping, rfl, ?_⟩, chosen, ?_⟩
    · rw [nodes]
      exact offered
    · rw [← nodes, Pool.nodes_getElem?, here, Option.map_some]

end
end Selector

namespace Served

def list (defaultWeight : Int) (x : Served) : List (String × Int) :=
  x.nodes.map (Node.offer defaultWeight)

def offers (defaultWeight : Int) (x : Served) : List (String × Float) :=
  Rotation.doubles (x.list defaultWeight)

theorem getElem?_list {x : Served} (defaultWeight : Int)
    (placed : x.nodes[x.ticket.place]? = some x.node) :
    (x.list defaultWeight)[x.ticket.place]? = some (x.node.offer defaultWeight) := by
  rw [list, List.getElem?_map, placed, Option.map_some]

theorem getElem?_offers {x : Served} (defaultWeight : Int)
    (placed : x.nodes[x.ticket.place]? = some x.node) :
    (x.offers defaultWeight)[x.ticket.place]? =
      some (x.node.address, Binary64.ofInt (x.node.staticWeight defaultWeight)) := by
  rw [offers, Rotation.doubles, List.getElem?_map, getElem?_list defaultWeight placed]
  rfl

end Served

namespace Rotation
variable {α : Type} [Add α] [LT α] [DecidableLT α] [Sub α] [Zero α]

/-- The nodes served are those that the rotation picks from the lists in force, one after the
other. -/
def Serves (offers : Served → List (String × α)) (r : Rotation α) : List Served → Prop
  | [] => True
  | x :: rest =>
    (r.pick (offers x)).2 = some x.ticket.place ∧ x.nodes[x.ticket.place]? = some x.node ∧
      Serves offers (r.pick (offers x)).1 rest

theorem Serves.addresses_eq {r : Rotation Float} {defaultWeight otherDefault : Int}
    {xs ys : List Served} (first : r.Serves (Served.offers defaultWeight) xs)
    (second : r.Serves (Served.offers otherDefault) ys)
    (same : xs.map (Served.offers defaultWeight) = ys.map (Served.offers otherDefault)) :
    (xs.map fun x => x.node.address) = ys.map fun y => y.node.address := by
  induction xs generalizing r ys with
  | nil =>
    rw [List.map_nil, eq_comm, List.map_eq_nil_iff] at same
    rw [same]
  | cons x xs ih =>
    cases ys with
    | nil => cases same
    | cons y ys =>
      rw [List.map_cons, List.map_cons, List.cons.injEq] at same
      obtain ⟨offers, later⟩ := same
      obtain ⟨picked, placed, rest⟩ := first
      obtain ⟨picked', placed', rest'⟩ := second
      rw [← offers] at picked' rest'
      rw [picked, Option.some.injEq] at picked'
      have here := Served.getElem?_offers defaultWeight placed
      rw [offers, picked', Served.getElem?_offers otherDefault placed', Option.some.injEq,
        Prod.mk.injEq] at here
      rw [List.map_cons, List.map_cons, ih rest rest' later, here.1]

end Rotation

def Blueprint.rotating (defaultWeight : Int) : Blueprint :=
  ⟨.fixed defaultWeight, .rotation .empty⟩

theorem Config.blueprint_rotation {c : Config} (rotation : c.algorithm = .rotation) :
    c.blueprint = .rotating c.direct.defaultWeight := by
  rw [blueprint, wrapping, rotation]
  rfl

namespace Session

def rotation? (s : Session) (on : Nat) : Option (Rotation Float) :=
  (s.selector? on).bind fun p =>
    match p.balancer with
    | .rotation state => some state
    | _ => none

theorem rotation?_eq {s : Session} {on : Nat} {p : Selector} (here : s.selector? on = some p)
    {defaultWeight : Int} {state : Rotation Float} (rotates : p.Rotates defaultWeight state) :
    s.rotation? on = some state := by
  rw [rotation?, here, Option.bind_some, rotates.balancer]

theorem rotates_step {s : Session} {on : Nat} {p : Selector} (here : s.selector? on = some p)
    {defaultWeight : Int} {state : Rotation Float} (rotates : p.Rotates defaultWeight state)
    (step : Step) :
    let shown := ((s.step step).served? on).toList
    state.Serves (Served.offers defaultWeight) shown ∧
      ∃ q, (s.step step).session.selector? on = some q ∧
        q.Rotates defaultWeight (state.through (shown.map (Served.offers defaultWeight))) := by
  obtain ⟨q, there, advances⟩ := advances_step here step
  generalize (s.step step).served? on = shown at advances
  cases advances with
  | rest => exact ⟨trivial, _, there, rotates⟩
  | apply nodes => exact ⟨trivial, _, there, rotates.apply nodes⟩
  | complete call ticket outcome => exact ⟨trivial, _, there, rotates.complete ticket s.now outcome s.journal⟩
  | weights => exact ⟨trivial, _, there, rotates.weights s.now⟩
  | select context draw result =>
    obtain ⟨after, picked, placed⟩ := rotates.select result
    exact ⟨⟨picked, placed, trivial⟩, _, there, after⟩

theorem rotates_after {s : Session} {on : Nat} {p : Selector} (here : s.selector? on = some p)
    {defaultWeight : Int} {state : Rotation Float} (rotates : p.Rotates defaultWeight state)
    (steps : List Step) :
    state.Serves (Served.offers defaultWeight) (s.served on steps) ∧
      ∃ q, (s.after steps).selector? on = some q ∧
        q.Rotates defaultWeight
          (state.through ((s.served on steps).map (Served.offers defaultWeight))) := by
  induction steps generalizing s p state with
  | nil => exact ⟨trivial, p, here, rotates⟩
  | cons step steps ih =>
    obtain ⟨one, q, there, after⟩ := rotates_step here rotates step
    obtain ⟨others, last, found, final⟩ := ih there after
    rw [served_cons, after_cons]
    refine ⟨?_, last, found, ?_⟩
    · cases shown : (s.step step).served? on with
      | none =>
        rw [shown] at others
        exact others
      | some x =>
        rw [shown] at one others
        exact ⟨one.1, one.2.1, others⟩
    · rw [List.map_append, Rotation.through, List.foldl_append]
      exact final

theorem selector?_rotating (defaultWeight : Int) {count on : Nat} (inside : on < count) :
    (ofBlueprint (.rotating defaultWeight) count).selector? on =
      some (Blueprint.rotating defaultWeight).build := by
  simp [ofBlueprint, selector?, inside]

theorem offers_served {defaultWeight : Int} {count on : Nat} (inside : on < count)
    (steps : List Step) :
    ((ofBlueprint (.rotating defaultWeight) count).served on steps).map
        (Served.offers defaultWeight) =
      (inForce on [] steps).map fun nodes =>
        Rotation.doubles (nodes.map (Node.offer defaultWeight)) := by
  have nodes := nodes_served (selector?_rotating defaultWeight inside) steps
  rw [show inForce on [] steps = _ from nodes.symm, List.map_map]
  rfl

theorem rotates_ofBlueprint (defaultWeight : Int) {count on : Nat} (inside : on < count)
    (steps : List Step) :
    let s := ofBlueprint (.rotating defaultWeight) count
    let lists := (s.served on steps).map (Served.offers defaultWeight)
    Rotation.empty.Serves (Served.offers defaultWeight) (s.served on steps) ∧
      ∃ q, (s.after steps).selector? on = some q ∧
        q.Rotates defaultWeight (Rotation.empty.through lists) := by
  refine rotates_after (selector?_rotating defaultWeight inside)
    ⟨rfl, rfl, rfl, fun place o listed => ?_⟩ steps
  cases listed

/-- Two runs in which the successful selections find the same addresses and weights in force,
however they came to be there and whatever else happens in between, select the same addresses and
leave the same running weights behind. -/
theorem served_addresses_eq {defaultWeight otherDefault : Int} {count otherCount on other : Nat}
    (inside : on < count) (otherInside : other < otherCount) {steps otherSteps : List Step}
    (same : ((ofBlueprint (.rotating defaultWeight) count).served on steps).map
        (Served.offers defaultWeight) =
      ((ofBlueprint (.rotating otherDefault) otherCount).served other otherSteps).map
        (Served.offers otherDefault)) :
    (((ofBlueprint (.rotating defaultWeight) count).served on steps).map
        fun x => x.node.address) =
      (((ofBlueprint (.rotating otherDefault) otherCount).served other otherSteps).map
        fun x => x.node.address) ∧
    ∃ state, ((ofBlueprint (.rotating defaultWeight) count).after steps).rotation? on =
        some state ∧
      ((ofBlueprint (.rotating otherDefault) otherCount).after otherSteps).rotation? other =
        some state := by
  obtain ⟨first, p, here, rotates⟩ := rotates_ofBlueprint defaultWeight inside steps
  obtain ⟨second, q, there, alike⟩ := rotates_ofBlueprint otherDefault otherInside otherSteps
  refine ⟨first.addresses_eq second same, _, rotation?_eq here rotates, ?_⟩
  rw [same]
  exact rotation?_eq there alike

/-- The second run is refused once, publishes its nodes anew and flaps to another list between its
selections. Its nodes have other names and their weights come from elsewhere. -/
theorem served_addresses_eq_republished :
    let nodes := [Node.weighing "a" 3, Node.weighing "b" 1]
    let others := [Node.weighing "a" 3, Node.bare "grpc" "b"]
    let select := Step.select 0 .withPeer default
    (((ofBlueprint (.rotating 100) 1).served 0 [.apply 0 nodes, select, select]).map
        fun x => x.node.address) =
      ((ofBlueprint (.rotating 1) 2).served 0
        [select, .setMetering false, .apply 0 others, select, .apply 1 nodes,
          .done 0 (.failed .canceled), .apply 0 nodes.reverse, .advanceClock 5, .apply 0 others,
          select]).map
        fun x => x.node.address := by
  intro nodes others select
  refine (served_addresses_eq Nat.one_pos Nat.two_pos ?_).1
  rw [offers_served Nat.one_pos, offers_served Nat.two_pos]
  rfl

end Session
end NodeSelection
