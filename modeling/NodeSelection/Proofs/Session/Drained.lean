import NodeSelection.Proofs.Rotation.Drained
import NodeSelection.Proofs.Session.Rotating

/-! Nodes that are drained, in the course of a session: nodes of weight zero beside others that have
a weight. They are still selected for running weight that they have kept from before, or that
others have lost to addresses that left, but every such selection takes the total of
the list off them, so it comes to an end. -/

namespace NodeSelection

namespace Rotation

variable {length weight : Nat} {defaultWeight : Int} {r : Rotation Int} {x : Served}
  {xs : List Served}

theorem Serves.won (serves : r.Serves (Served.list defaultWeight) (x :: xs))
    (modest : Modest length weight (x.list defaultWeight)) :
    Won r (x.list defaultWeight) x.ticket.place x.node.address := by
  obtain ⟨place, winner, won⟩ :=
    exists_won r modest.ne fun c member => (modest.weights c member).1
  have same : place = x.ticket.place := Option.some.inj (won.chosen.symm.trans serves.1)
  subst same
  obtain ⟨own, found⟩ := won.candidate
  rw [Served.getElem?_list defaultWeight serves.2.1, Option.some.injEq] at found
  have address : x.node.address = winner := congrArg Prod.fst found
  rwa [address]

theorem Serves.whole (fits : (4 * length ^ 2 + length) * weight < 2 ^ 53)
    (steady : Steady (2 * length) (length * weight) r.running)
    (modest : ∀ x ∈ xs, Modest length weight (x.list defaultWeight))
    (serves : (r.map Binary64.ofInt).Serves (Served.offers defaultWeight) xs) :
    r.Serves (Served.list defaultWeight) xs ∧
      (r.map Binary64.ofInt).through (xs.map (Served.offers defaultWeight)) =
        (r.through (xs.map (Served.list defaultWeight))).map Binary64.ofInt := by
  induction xs generalizing r with
  | nil => exact ⟨trivial, rfl⟩
  | cons x xs ih =>
    obtain ⟨now, later⟩ := List.forall_mem_cons.1 modest
    obtain ⟨picked, placed, rest⟩ := serves
    have exact : (r.map Binary64.ofInt).pick (x.offers defaultWeight) = _ :=
      pick_doubles fits steady now
    rw [exact] at picked rest
    obtain ⟨served, through⟩ := ih (steady.pick now) later rest
    refine ⟨⟨picked, placed, served⟩, ?_⟩
    rw [List.map_cons, Rotation.through, List.foldl_cons, exact]
    exact through

theorem serves_append {α : Type} [Add α] [LT α] [DecidableLT α] [Sub α] [Zero α]
    {offers : Served → List (String × α)} {r : Rotation α} {xs ys : List Served} :
    r.Serves offers (xs ++ ys) ↔
      r.Serves offers xs ∧ (r.through (xs.map offers)).Serves offers ys := by
  induction xs generalizing r with
  | nil => exact (iff_of_eq (true_and _)).symm
  | cons x xs ih =>
    rw [List.cons_append, Serves, ih, Serves, and_assoc, and_assoc]
    rfl

/-- An address that gains nothing pays for every selection of its own out of what it has. -/
theorem Serves.paid (serves : r.Serves (Served.list defaultWeight) xs)
    (modest : ∀ x ∈ xs, Modest length weight (x.list defaultWeight)) {address : String}
    (drained : ∀ x ∈ xs, address ∈ (x.list defaultWeight).map Prod.fst ∧
      demand (x.list defaultWeight) address = 0) :
    ((xs.filter fun x => x.node.address = address).map fun x => total (x.list defaultWeight)).sum =
      credit r.running address -
        credit (r.through (xs.map (Served.list defaultWeight))).running address := by
  induction xs generalizing r with
  | nil => exact (sub_self _).symm
  | cons x xs ih =>
    obtain ⟨now, later⟩ := List.forall_mem_cons.1 modest
    obtain ⟨⟨listed, nothing⟩, elsewhere⟩ := List.forall_mem_cons.1 drained
    have rest := ih serves.2.2 later elsewhere
    rw [(serves.won now).credit listed, claim, nothing, add_zero] at rest
    rw [List.map_cons, Rotation.through, List.foldl_cons, ← Rotation.through]
    by_cases own : x.node.address = address
    · rw [if_pos own.symm] at rest
      rw [List.filter_cons_of_pos (by simpa using own), List.map_cons, List.sum_cons, rest]
      ring
    · rw [if_neg (Ne.symm own), add_zero] at rest
      rw [List.filter_cons_of_neg (by simpa using own), rest]

end Rotation

structure Sound (length weight : Nat) (defaultWeight : Int) (nodes : List Node) : Prop where
  distinct : (nodes.map Node.address).Nodup
  short : nodes.length ≤ length
  weights : ∀ n ∈ nodes,
    0 ≤ n.staticWeight defaultWeight ∧ n.staticWeight defaultWeight ≤ weight

namespace Sound
open Rotation

variable {length weight : Nat} {defaultWeight : Int} {nodes : List Node}
  (sound : Sound length weight defaultWeight nodes)

theorem map_fst_offer (defaultWeight : Int) (nodes : List Node) :
    (nodes.map (Node.offer defaultWeight)).map Prod.fst = nodes.map Node.address :=
  List.map_map

include sound

theorem modest (some : nodes ≠ []) :
    Modest length weight (nodes.map (Node.offer defaultWeight)) where
  ne := by simpa using some
  short := by simpa using sound.short
  weights := by simpa [Node.offer] using sound.weights

theorem demand_eq {n : Node} (member : n ∈ nodes) :
    demand (nodes.map (Node.offer defaultWeight)) n.address = n.staticWeight defaultWeight :=
  demand_of_mem (c := n.offer defaultWeight) (by rw [map_fst_offer]; exact sound.distinct)
    (List.mem_map_of_mem member)

theorem demand_eq_zero {address : String}
    (drained : ∀ n ∈ nodes, n.address = address → n.staticWeight defaultWeight = 0) :
    demand (nodes.map (Node.offer defaultWeight)) address = 0 := by
  by_cases listed : address ∈ nodes.map Node.address
  · obtain ⟨n, member, rfl⟩ := List.mem_map.1 listed
    rw [sound.demand_eq member, drained n member rfl]
  · exact demand_of_not_mem (by rwa [map_fst_offer])

theorem total_pos {n : Node} (member : n ∈ nodes) (pos : 0 < n.staticWeight defaultWeight) :
    0 < total (nodes.map (Node.offer defaultWeight)) := by
  refine pos.trans_le (List.single_le_sum (fun w among => ?_) _ ?_)
  · simp only [List.map_map, List.mem_map] at among
    obtain ⟨m, listed, rfl⟩ := among
    exact (sound.weights m listed).1
  · rw [List.map_map]
    exact List.mem_map_of_mem (f := fun n => n.staticWeight defaultWeight) member

end Sound

structure Served.Sound (length weight : Nat) (defaultWeight : Int) (x : Served) : Prop where
  nodes : NodeSelection.Sound length weight defaultWeight x.nodes
  modest : Rotation.Modest length weight (x.list defaultWeight)

namespace Rotation

variable {length weight : Nat} {defaultWeight : Int} {r : Rotation Int} {x : Served}
  {xs : List Served}

theorem claim_offer {running : Table Int} (sound : x.Sound length weight defaultWeight) {n : Node}
    (member : n ∈ x.nodes) :
    claim running (x.list defaultWeight) n.address =
      credit running n.address + n.staticWeight defaultWeight := by
  rw [claim]
  exact congrArg _ (sound.nodes.demand_eq member)

theorem Serves.claim_winner (serves : r.Serves (Served.list defaultWeight) (x :: xs))
    (sound : x.Sound length weight defaultWeight)
    (drained : x.node.staticWeight defaultWeight = 0) :
    claim r.running (x.list defaultWeight) x.node.address = credit r.running x.node.address := by
  rw [claim_offer sound (List.mem_of_getElem? serves.2.1), drained, add_zero]

theorem Serves.outbids (serves : r.Serves (Served.list defaultWeight) (x :: xs))
    (sound : x.Sound length weight defaultWeight)
    (drained : x.node.staticWeight defaultWeight = 0) {n : Node} (member : n ∈ x.nodes) :
    credit r.running n.address + n.staticWeight defaultWeight ≤
      credit r.running x.node.address := by
  have named : n.address ∈ (x.list defaultWeight).map Prod.fst := by
    rw [Served.list, Sound.map_fst_offer]
    exact List.mem_map_of_mem member
  rw [← claim_offer sound member, ← serves.claim_winner sound drained]
  exact (serves.won sound.modest).greatest n.address named

theorem settled_served (sound : ∀ y ∈ xs, y.Sound length weight defaultWeight)
    (grows : ((xs ++ [x]).map fun y => y.nodes.map Node.address).IsChain (· ⊆ ·)) :
    Settled (listed (x.list defaultWeight))
      ((empty : Rotation Int).through (xs.map (Served.list defaultWeight))).running := by
  have same (y : Served) : listed (y.list defaultWeight) = (y.nodes.map Node.address).toFinset :=
    congrArg List.toFinset (Sound.map_fst_offer defaultWeight y.nodes)
  have lists : (xs.map (Served.list defaultWeight)).map listed ++ [listed (x.list defaultWeight)] =
      ((xs ++ [x]).map fun y => y.nodes.map Node.address).map List.toFinset := by
    simp [same]
  have modest : ∀ l ∈ xs.map (Served.list defaultWeight), Modest length weight l :=
    List.forall_mem_map.2 fun y member => (sound y member).modest
  refine settled_through modest settled_empty (.cons ?_ fun _ _ => Finset.empty_subset _)
  rw [lists, List.isChain_map]
  exact grows.imp fun first second within address member =>
    List.mem_toFinset.2 (within (List.mem_toFinset.1 member))

theorem credit_nonpos_served (sound : ∀ y ∈ xs, y.Sound length weight defaultWeight)
    {address : String}
    (drained : ∀ y ∈ xs, ∀ n ∈ y.nodes, n.address = address → n.staticWeight defaultWeight = 0) :
    credit ((empty : Rotation Int).through (xs.map (Served.list defaultWeight))).running address ≤
      0 := by
  refine credit_nonpos_through (List.forall_mem_map.2 fun y member => (sound y member).modest)
    le_rfl (List.forall_mem_map.2 fun y member => ?_)
  exact (sound y member).nodes.demand_eq_zero (drained y member)

theorem Serves.paid_le (serves : r.Serves (Served.list defaultWeight) xs)
    (sound : ∀ y ∈ xs, y.Sound length weight defaultWeight)
    (steady : Steady (2 * length) (length * weight) r.running) {address : String}
    (drained : ∀ y ∈ xs, ∃ n ∈ y.nodes, n.address = address ∧ n.staticWeight defaultWeight = 0) :
    ((xs.filter fun y => y.node.address = address).map fun y => total (y.list defaultWeight)).sum ≤
      8 * length ^ 2 * weight := by
  have modest : ∀ y ∈ xs, Modest length weight (y.list defaultWeight) :=
    fun y member => (sound y member).modest
  have nothing : ∀ y ∈ xs, address ∈ (y.list defaultWeight).map Prod.fst ∧
      demand (y.list defaultWeight) address = 0 := by
    intro y member
    obtain ⟨n, named, rfl, none⟩ := drained y member
    rw [Served.list, Sound.map_fst_offer, (sound y member).nodes.demand_eq named, none]
    exact ⟨List.mem_map_of_mem named, rfl⟩
  rw [serves.paid modest nothing]
  cases xs with
  | nil =>
    rw [List.map_nil, Rotation.through, List.foldl_nil, sub_self]
    positivity
  | cons y ys =>
    have first := modest y List.mem_cons_self
    have one : 1 ≤ length := (List.length_pos_iff.2 first.ne).trans_le first.short
    have final := steady_through steady (List.forall_mem_map.2 modest)
    have before := abs_le.1 (steady.abs_credit_le one address)
    have after := abs_le.1 (final.abs_credit_le one address)
    linarith

theorem Serves.placed {α : Type} [Add α] [LT α] [DecidableLT α] [Sub α] [Zero α]
    {offers : Served → List (String × α)} {r : Rotation α} {xs : List Served}
    (serves : r.Serves offers xs) : ∀ x ∈ xs, x.nodes[x.ticket.place]? = some x.node := by
  induction xs generalizing r with
  | nil => simp
  | cons x xs ih => exact List.forall_mem_cons.2 ⟨serves.2.1, ih serves.2.2⟩

end Rotation

namespace Session
open Rotation

theorem sound_served {length weight : Nat} {defaultWeight : Int} {count on : Nat}
    (inside : on < count) {steps : List Step}
    (sound : ∀ nodes ∈ inForce on [] steps, Sound length weight defaultWeight nodes) :
    ∀ x ∈ (ofBlueprint (.rotating defaultWeight) count).served on steps,
      x.Sound length weight defaultWeight := by
  intro x member
  have nodes := nodes_served (selector?_rotating defaultWeight inside) steps
  have serves := (rotates_ofBlueprint defaultWeight inside steps).1
  have listed : Sound length weight defaultWeight x.nodes := by
    refine sound _ ?_
    rw [show inForce on [] steps = _ from nodes.symm]
    exact List.mem_map_of_mem member
  refine ⟨listed, listed.modest fun none => ?_⟩
  have placed := serves.placed x member
  rw [none] at placed
  cases placed

/-- What a node of weight zero holds that is selected, and how often it can be. -/
theorem served_drained {length weight : Nat} (fits : (4 * length ^ 2 + length) * weight < 2 ^ 53)
    {defaultWeight : Int} {count on : Nat} (inside : on < count) {steps later : List Step}
    (sound : ∀ nodes ∈ inForce on [] (steps ++ later), Sound length weight defaultWeight nodes) :
    let s := ofBlueprint (.rotating defaultWeight) count
    let t := s.after steps
    ∃ state : Rotation Int, t.rotation? on = some (state.map Binary64.ofInt) ∧
      (∀ x rest, t.served on later = x :: rest → x.node.staticWeight defaultWeight = 0 →
        (∀ n ∈ x.nodes, credit state.running n.address + n.staticWeight defaultWeight ≤
          credit state.running x.node.address) ∧
        ((∃ n ∈ x.nodes, 0 < n.staticWeight defaultWeight) →
          ((s.served on steps ++ [x]).map fun y => y.nodes.map Node.address).IsChain (· ⊆ ·) →
          0 < credit state.running x.node.address) ∧
        ((∀ y ∈ s.served on steps, ∀ n ∈ y.nodes, n.address = x.node.address →
            n.staticWeight defaultWeight = 0) →
          credit state.running x.node.address ≤ 0)) ∧
      ∀ address, (∀ x ∈ t.served on later, ∃ n ∈ x.nodes, n.address = address ∧
          n.staticWeight defaultWeight = 0) →
        (((t.served on later).filter fun x => x.node.address = address).map fun x =>
          total (x.list defaultWeight)).sum ≤ 8 * length ^ 2 * weight := by
  intro s t
  have served : s.served on (steps ++ later) = s.served on steps ++ t.served on later :=
    s.served_append on steps later
  have sound := sound_served inside sound
  obtain ⟨serves, _⟩ := rotates_ofBlueprint defaultWeight inside (steps ++ later)
  obtain ⟨first, p, here, rotates⟩ := rotates_ofBlueprint defaultWeight inside steps
  rw [served] at serves sound
  obtain ⟨early, late⟩ := List.forall_mem_append.1 sound
  have steady := steady_empty (2 * length) (show 0 ≤ (length * weight : Int) by positivity)
  have modest : ∀ y ∈ s.served on steps, Modest length weight (y.list defaultWeight) :=
    fun y member => (early y member).modest
  have through := (Serves.whole (r := .empty) fits steady modest first).2
  have whole := (Serves.whole (r := .empty) fits steady (fun y member => (sound y member).modest)
    serves).1
  obtain ⟨_, serves⟩ := serves_append.1 whole
  have steady := steady_through steady (List.forall_mem_map.2 modest)
  refine ⟨_, (rotation?_eq here rotates).trans (congrArg some through), fun x rest shown drained =>
    ?_, fun address drained => serves.paid_le late steady drained⟩
  rw [shown] at serves late
  have now := late x List.mem_cons_self
  refine ⟨fun n member => serves.outbids now drained member, fun ⟨n, member, pos⟩ grows => ?_,
    credit_nonpos_served early⟩
  rw [← serves.claim_winner now drained]
  exact (serves.won now.modest).claim_pos (settled_served early grows)
    (now.nodes.total_pos member pos)

-- Two nodes of which one is drained before it has had its turn. It has it then.
def both : List Node := [Node.weighing "a" 1, Node.weighing "b" 1]

def half : List Node := [Node.weighing "a" 1, Node.weighing "b" 0]

def draining : List Step := [.apply 0 both, .select 0 .empty default, .apply 0 half]

theorem served_draining :
    ((ofBlueprint (.rotating 100) 1).after draining).served 0 [.select 0 .empty default] =
      [⟨⟨2, 1, 0⟩, Node.weighing "b" 0, half, ⟨0⟩, false⟩] := by
  rfl

theorem sound_draining :
    ∀ nodes ∈ inForce 0 [] (draining ++ [.select 0 .empty default]), Sound 2 1 100 nodes := by
  have first : Sound 2 1 100 both := ⟨by decide, by decide, by decide⟩
  have later : Sound 2 1 100 half := ⟨by decide, by decide, by decide⟩
  show ∀ nodes ∈ [both, half], Sound 2 1 100 nodes
  simp [first, later]

theorem served_drained_once :
    let t := (ofBlueprint (.rotating 100) 1).after draining
    let later := [Step.select 0 .empty default]
    (∃ state : Rotation Int, t.rotation? 0 = some (state.map Binary64.ofInt) ∧
      credit state.running "a" + 1 ≤ credit state.running "b") ∧
      (((t.served 0 later).filter fun x => x.node.address = "b").map fun x =>
        total (x.list 100)).sum ≤ 32 := by
  intro t later
  obtain ⟨state, held, holds, paid⟩ := served_drained (by decide) Nat.one_pos sound_draining
  refine ⟨⟨state, held, ?_⟩, paid "b" (by decide)⟩
  exact (holds _ [] served_draining rfl).1 (Node.weighing "a" 1) List.mem_cons_self

theorem drained_node_served :
    ¬ ∀ steps context draw,
      (∀ nodes ∈ inForce 0 [] (steps ++ [.select 0 context draw]),
        (nodes.map Node.address).Nodup ∧ ∀ n ∈ nodes, 0 ≤ n.staticWeight 100) →
      ∀ x ∈ ((ofBlueprint (.rotating 100) 1).after steps).served 0 [.select 0 context draw],
        (∃ n ∈ x.nodes, 0 < n.staticWeight 100) → x.node.staticWeight 100 ≠ 0 := by
  intro never
  refine never draining .empty default (fun nodes member => ?_) _
    (by rw [served_draining]; exact List.mem_cons_self) ⟨_, List.mem_cons_self, by decide⟩ rfl
  have sound := sound_draining nodes member
  exact ⟨sound.distinct, fun n listed => (sound.weights n listed).1⟩

end Session
end NodeSelection
