import NodeSelection.Proofs.Balancer.Exclusive
import NodeSelection.Proofs.Lists
import NodeSelection.Session

/-! What the steps of a session can do, to the selectors (`selectors_step`) and to the open calls
(`calls_step`). A selection succeeds unless there are no candidates, and reaches only the
one that it returns. No step touches the node sets that were in force before; an apply adds
one to them (`Selector.Moves`). -/

namespace NodeSelection

namespace Pool

theorem nodes_set {p : Pool} {place : Nat} {c d : Candidate} (here : p.get? place = some c)
    (same : d.node = c.node) : (p.set place d).nodes = p.nodes :=
  map_set_of_eq here same

@[simp]
theorem nodes_complete (p : Pool) (place number : Nat) (now : Int) (outcome : Outcome)
    (journal : Journal) : (p.complete place number now outcome journal).1.nodes = p.nodes := by
  rw [complete]
  cases here : p.get? place with
  | none => rfl
  | some c => exact nodes_set here (Candidate.node_complete c number now outcome journal)

@[simp]
theorem nodes_weighAll (p : Pool) (now : Int) (places : List Nat) :
    (p.weighAll now places).2.nodes = p.nodes := by
  induction places generalizing p with
  | nil => rfl
  | cons place rest ih =>
    rw [weighAll, ih, weigh]
    cases here : p.get? place with
    | none => rfl
    | some c => exact nodes_set here (Candidate.node_weigh c now)

end Pool

namespace Selector

theorem places_eq_nil_iff {s : Selector} : s.pool.places = [] ↔ s.pool.nodes = [] := by
  rw [Pool.places, List.range_eq_nil, Pool.nodes, List.map_eq_nil_iff, Pool.size,
    List.length_eq_zero_iff]

theorem select_of_nodes_eq_nil {s : Selector} (none : s.pool.nodes = []) (context : CallContext)
    (now : Int) (draw : Draw) :
    s.select context now draw =
      ⟨s, context, .error .noAvailableNode, [.noneAvailable s.algorithm]⟩ := by
  rw [select, places_eq_nil_iff.2 none, Balancer.pick_nil]

/-- What a selection has done to a selector: one candidate was picked, the one that stands for the
node returned. -/
structure Serves (now : Int) (before after : Selector) (node : Node) (place number : Nat) :
    Prop where
  node : before.pool.nodes[place]? = some node
  picked : before.pool.PickedAt now place number after.pool
  past : after.past = before.past
  wrapping : after.wrapping = before.wrapping
  balancer : before.algorithm ≠ .rotation → after.balancer = before.balancer

theorem exists_serves {s : Selector} (some : s.pool.nodes ≠ []) (context : CallContext) (now : Int)
    (draw : Draw) :
    ∃ after node place number events,
      s.select context now draw =
          ⟨after, context.fill node, .ok (node, ⟨s.generation, place, number⟩), events⟩ ∧
        s.Serves now after node place number := by
  have inside : ∀ place ∈ s.pool.places, place < s.pool.size := fun place member =>
    List.mem_range.1 member
  obtain ⟨r, chosen, _, picked⟩ :=
    s.balancer.exists_pick (mt places_eq_nil_iff.1 some) inside now draw
  obtain ⟨c, d, here, asked, there, _⟩ := picked.picked
  have node : s.pool.nodes[r.place]? = .some (d.pick now).1.node := by
    rw [Pool.nodes_getElem?, here, Option.map_some, Candidate.node_pick, asked.node]
  refine ⟨{ s with balancer := r.balancer, pool := r.pool }, (d.pick now).1.node, r.place,
    r.number, r.events ++ [.selected s.algorithm (d.pick now).1.address r.pool.size], ?_,
    node, picked, rfl, rfl, fun other => Balancer.balancer_of_pick other chosen⟩
  rw [select, chosen]
  dsimp only
  rw [there]

@[simp]
theorem generation_apply (s : Selector) (nodes : List Node) :
    (s.apply nodes).1.generation = s.generation + 1 := List.length_append

theorem generation_setGenerationPool (s : Selector) (generation : Nat) (pool : Pool) :
    (s.setGenerationPool generation pool).generation = s.generation := by
  rw [setGenerationPool]
  split
  · rfl
  · exact List.length_set

def nodeSets (s : Selector) : List (List Node) := (s.past ++ [s.pool]).map Pool.nodes

theorem nodeSets_getLast? (s : Selector) : s.nodeSets.getLast? = some s.pool.nodes := by
  rw [nodeSets, List.map_append, List.map_singleton, List.getLast?_concat]

theorem length_nodeSets (s : Selector) : s.nodeSets.length = s.generation + 1 := by
  rw [nodeSets, List.length_map, List.length_append, List.length_singleton, generation]

theorem nodeSets_getElem? (s : Selector) (generation : Nat) :
    s.nodeSets[generation]? = (s.generationPool? generation).map Pool.nodes := by
  rw [nodeSets, List.getElem?_map, generationPool?, Selector.generation]
  split
  · rename_i current
    rw [current, List.getElem?_concat_length]
  · rename_i other
    rw [List.getElem?_append]
    split
    · rfl
    · rw [List.getElem?_eq_none (by simp; omega), List.getElem?_eq_none (by omega)]

theorem nodeSets_setGenerationPool {s : Selector} {generation : Nat} {old new : Pool}
    (here : s.generationPool? generation = some old) (same : new.nodes = old.nodes) :
    (s.setGenerationPool generation new).nodeSets = s.nodeSets := by
  rw [generationPool?] at here
  rw [setGenerationPool]
  split
  · rename_i current
    rw [if_pos current, Option.some.injEq] at here
    rw [nodeSets, nodeSets, List.map_append, List.map_append, List.map_singleton,
      List.map_singleton, same, here]
  · rename_i other
    rw [if_neg other] at here
    rw [nodeSets, nodeSets, List.map_append, List.map_append, map_set_of_eq here same]

/-- The candidate for a node of a set, in force or superseded. -/
def candidate? (s : Selector) (generation place : Nat) : Option Candidate :=
  (s.generationPool? generation).bind fun pool => pool.get? place

theorem exists_candidate {s : Selector} {generation place : Nat} {nodes : List Node}
    (set : s.nodeSets[generation]? = some nodes) (inside : place < nodes.length) :
    ∃ c, s.candidate? generation place = some c := by
  rw [nodeSets_getElem?] at set
  obtain ⟨pool, here, rfl⟩ := Option.map_eq_some_iff.1 set
  rw [Pool.nodes, List.length_map] at inside
  exact ⟨_, by rw [candidate?, here]; exact List.getElem?_eq_getElem inside⟩

theorem generationPool?_setGenerationPool {s : Selector} {generation : Nat} {old : Pool}
    (here : s.generationPool? generation = some old) (new : Pool) (other : Nat) :
    (s.setGenerationPool generation new).generationPool? other =
      if other = generation then some new else s.generationPool? other := by
  rw [generationPool?, generation_setGenerationPool, generationPool?, setGenerationPool]
  rw [generationPool?] at here
  by_cases current : generation = s.generation
  · rw [if_pos current, ← current]
    split <;> rfl
  · rw [if_neg current] at here ⊢
    have inside := (List.getElem?_eq_some_iff.1 here).1
    dsimp only
    by_cases same : other = generation
    · rw [if_pos same, same, if_neg current, List.getElem?_set_self inside]
    · rw [if_neg same, List.getElem?_set_ne (Ne.symm same)]

theorem setGenerationPool_self {s : Selector} {generation : Nat} {pool : Pool}
    (here : s.generationPool? generation = some pool) : s.setGenerationPool generation pool = s := by
  rw [generationPool?] at here
  rw [setGenerationPool]
  split at here
  · rename_i current
    rw [if_pos current]
    cases here
    rfl
  · rename_i superseded
    obtain ⟨inside, rfl⟩ := List.getElem?_eq_some_iff.1 here
    rw [if_neg superseded, List.set_getElem_self]

theorem generationPool?_apply (s : Selector) (nodes : List Node) (generation : Nat) :
    (s.apply nodes).1.generationPool? generation =
      if generation = s.generation + 1 then some (s.wrapping.pool nodes)
      else s.generationPool? generation := by
  rw [generationPool?, generation_apply]
  split
  · rfl
  · rename_i old
    -- What was in force is the last of the superseded ones now.
    have past : (s.apply nodes).1.past = s.past ++ [s.pool] := rfl
    rw [past, generationPool?]
    split
    · rename_i current
      rw [current, Selector.generation, List.getElem?_concat_length]
    · rename_i other
      rw [List.getElem?_append]
      split
      · rfl
      · rw [Selector.generation] at old other
        rw [List.getElem?_eq_none (by simp; omega), List.getElem?_eq_none (by omega)]

theorem generationPool?_of_past {s t : Selector} (past : t.past = s.past) (generation : Nat) :
    t.generationPool? generation =
      if generation = s.generation then some t.pool else s.generationPool? generation := by
  have same : t.generation = s.generation := by rw [Selector.generation, past, Selector.generation]
  rw [generationPool?, generationPool?, same, past]
  split <;> rfl

/-- What steps do to a selector, in the course of which some node sets are applied to it. -/
structure Moves (applied : List (List Node)) (before after : Selector) : Prop where
  wrapping : after.wrapping = before.wrapping
  balancer : before.algorithm ≠ .rotation → after.balancer = before.balancer
  nodeSets : after.nodeSets = before.nodeSets ++ applied

theorem Moves.refl (s : Selector) : s.Moves [] s := ⟨rfl, fun _ => rfl, (List.append_nil _).symm⟩

theorem Moves.trans {first second : List (List Node)} {p q r : Selector} (one : p.Moves first q)
    (two : q.Moves second r) : p.Moves (first ++ second) r where
  wrapping := two.wrapping.trans one.wrapping
  balancer other := by
    have same := one.balancer other
    exact (two.balancer (by rwa [algorithm, same])).trans same
  nodeSets := by rw [two.nodeSets, one.nodeSets, List.append_assoc]

theorem Moves.generation {applied : List (List Node)} {p q : Selector} (moves : p.Moves applied q) :
    q.generation = p.generation + applied.length := by
  have count := congrArg List.length moves.nodeSets
  rw [length_nodeSets, List.length_append, length_nodeSets] at count
  omega

theorem Moves.nodes {p q : Selector} (moves : p.Moves [] q) : q.pool.nodes = p.pool.nodes := by
  have sets := congrArg List.getLast? moves.nodeSets
  rw [List.append_nil, nodeSets_getLast?, nodeSets_getLast?] at sets
  exact Option.some.inj sets

theorem moves_apply (s : Selector) (nodes : List Node) : s.Moves [nodes] (s.apply nodes).1 where
  wrapping := rfl
  balancer _ := rfl
  nodeSets := by
    rw [Selector.nodeSets, Selector.nodeSets, apply, List.map_append, List.map_singleton,
      Pool.nodes_pool]

theorem moves_select (s : Selector) (context : CallContext) (now : Int) (draw : Draw) :
    s.Moves [] (s.select context now draw).selector := by
  by_cases none : s.pool.nodes = []
  · rw [select_of_nodes_eq_nil none]
    exact .refl s
  · obtain ⟨after, node, place, number, events, selected, serves⟩ :=
      exists_serves none context now draw
    rw [selected]
    refine ⟨serves.wrapping, serves.balancer, ?_⟩
    rw [List.append_nil, nodeSets, nodeSets, serves.past, List.map_append, List.map_append,
      List.map_singleton, List.map_singleton, serves.picked.nodes]

theorem moves_complete (s : Selector) (ticket : Ticket) (now : Int) (outcome : Outcome)
    (journal : Journal) : s.Moves [] (s.complete ticket now outcome journal).selector := by
  rw [complete]
  cases found : s.generationPool? ticket.generation with
  | none => exact .refl s
  | some pool =>
    have same := pool.nodes_complete ticket.place ticket.number now outcome journal
    refine ⟨?_, fun _ => ?_, ?_⟩
    · dsimp only [setGenerationPool]
      split <;> rfl
    · dsimp only [setGenerationPool]
      split <;> rfl
    · rw [List.append_nil]
      exact nodeSets_setGenerationPool found same

theorem moves_weights (s : Selector) (now : Int) : s.Moves [] (s.weights now).2 where
  wrapping := rfl
  balancer _ := rfl
  nodeSets := by
    rw [List.append_nil, Selector.nodeSets, Selector.nodeSets, weights, List.map_append,
      List.map_append, List.map_singleton, List.map_singleton, Pool.nodes_weighAll]

end Selector

namespace Calls
variable {τ : Type}

@[simp]
theorem next_put (c : Calls τ) (handle : τ) : (c.put handle).next = c.next + 1 := Array.size_push _

@[simp]
theorem next_drop (c : Calls τ) (call : Nat) : (c.drop call).next = c.next :=
  Array.size_setIfInBounds

theorem get?_of_next_le {c : Calls τ} {call : Nat} (none : c.next ≤ call) : c.get? call = .none := by
  rw [get?, Array.getElem?_eq_none none]
  rfl

theorem get?_of_get?_drop {c : Calls τ} {call other : Nat} {handle : τ}
    (here : (c.drop call).get? other = some handle) : c.get? other = some handle := by
  by_cases same : other = call
  · rw [same, get?_drop_self] at here
    cases here
  · rwa [get?_drop_of_ne c same] at here

end Calls

namespace Session

def after (s : Session) (steps : List Step) : Session :=
  steps.foldl (fun s step => (s.step step).session) s

theorem after_cons (s : Session) (step : Step) (steps : List Step) :
    s.after (step :: steps) = (s.step step).session.after steps := rfl

theorem after_append (s : Session) (first second : List Step) :
    s.after (first ++ second) = (s.after first).after second := List.foldl_append

def Step.applied? (on : Nat) : Step → Option (List Node)
  | .apply target nodes => if target = on then some nodes else none
  | _ => none

theorem setSelector_self {s : Session} {on : Nat} {selector : Selector}
    (here : s.selector? on = some selector) : s.setSelector on selector = s := by
  obtain ⟨inside, rfl⟩ := List.getElem?_eq_some_iff.1 here
  rw [setSelector, List.set_getElem_self]

/-- One step, seen from the selectors: none of them changes, or one has moved. -/
theorem selectors_step (s : Session) (step : Step) :
    ((s.step step).session.selectors = s.selectors ∧
        ∀ on, (s.selector? on).isSome → step.applied? on = none) ∨
      ∃ target old new, s.selector? target = some old ∧
        old.Moves (step.applied? target).toList new ∧
        (∀ on, on ≠ target → step.applied? on = none) ∧
        (s.step step).session.selectors = s.selectors.set target new := by
  cases step with
  | apply target nodes =>
    rw [step, applyStep]
    cases found : s.selector? target with
    | none =>
      refine Or.inl ⟨rfl, fun on here => if_neg fun same => ?_⟩
      rw [← same, found] at here
      cases here
    | some old =>
      refine Or.inr ⟨target, old, _, found, ?_, fun on other => if_neg (Ne.symm other), rfl⟩
      rw [Step.applied?, if_pos rfl]
      exact old.moves_apply nodes
  | select target context draw =>
    rw [step, selectStep]
    cases found : s.selector? target with
    | none => exact Or.inl ⟨rfl, fun _ _ => rfl⟩
    | some old =>
      have moves := old.moves_select context s.now draw
      dsimp only
      split <;> exact Or.inr ⟨target, old, _, found, moves, fun _ _ => rfl, rfl⟩
  | done call outcome =>
    rw [step, doneStep]
    cases s.calls.get? call with
    | none => exact Or.inl ⟨rfl, fun _ _ => rfl⟩
    | some handle =>
      obtain ⟨target, ticket⟩ := handle
      dsimp only
      cases found : s.selector? target with
      | none => exact Or.inl ⟨rfl, fun _ _ => rfl⟩
      | some old =>
        have moves := old.moves_complete ticket s.now outcome s.journal
        exact Or.inr ⟨target, old, _, found, moves, fun _ _ => rfl, rfl⟩
  | weights target =>
    rw [step, weightsStep]
    cases found : s.selector? target with
    | none => exact Or.inl ⟨rfl, fun _ _ => rfl⟩
    | some old => exact Or.inr ⟨target, old, _, found, old.moves_weights s.now, fun _ _ => rfl, rfl⟩
  | setClock value => exact Or.inl ⟨rfl, fun _ _ => rfl⟩
  | advanceClock offset => exact Or.inl ⟨rfl, fun _ _ => rfl⟩
  | setMetering value => exact Or.inl ⟨rfl, fun _ _ => rfl⟩

theorem moves_step {s : Session} {on : Nat} {selector : Selector}
    (here : s.selector? on = some selector) (step : Step) :
    ∃ next, (s.step step).session.selector? on = some next ∧
      selector.Moves (step.applied? on).toList next := by
  rcases selectors_step s step with ⟨same, none⟩ | ⟨target, old, new, found, moves, none, set⟩
  · refine ⟨selector, by rw [selector?, same]; exact here, ?_⟩
    rw [none on (Option.isSome_of_mem here)]
    exact .refl selector
  · rw [selector?, set]
    by_cases same : on = target
    · subst same
      rw [found, Option.some.injEq] at here
      exact ⟨new, List.getElem?_set_self (List.getElem?_eq_some_iff.1 found).1, here ▸ moves⟩
    · refine ⟨selector, by rw [List.getElem?_set_ne (Ne.symm same)]; exact here, ?_⟩
      rw [none on same]
      exact .refl selector

theorem moves_after {s : Session} {on : Nat} {selector : Selector}
    (here : s.selector? on = some selector) (steps : List Step) :
    ∃ last, (s.after steps).selector? on = some last ∧
      selector.Moves (steps.filterMap (Step.applied? on)) last := by
  induction steps generalizing s selector with
  | nil => exact ⟨selector, here, .refl selector⟩
  | cons step steps ih =>
    obtain ⟨next, there, one⟩ := moves_step here step
    obtain ⟨last, found, rest⟩ := ih there
    refine ⟨last, found, ?_⟩
    have both := one.trans rest
    cases applied : step.applied? on with
    | none =>
      rw [applied] at both
      rwa [List.filterMap_cons_none applied]
    | some nodes =>
      rw [applied] at both
      rwa [List.filterMap_cons_some applied]

theorem moves_ofBlueprint (b : Blueprint) {count on : Nat} (inside : on < count)
    (steps : List Step) :
    ∃ selector, ((ofBlueprint b count).after steps).selector? on = some selector ∧
      b.build.Moves (steps.filterMap (Step.applied? on)) selector :=
  moves_after (by simp [ofBlueprint, selector?, inside]) steps

theorem length_selectors_step (s : Session) (step : Step) :
    (s.step step).session.selectors.length = s.selectors.length := by
  rcases selectors_step s step with ⟨same, _⟩ | ⟨target, _, new, _, _, _, set⟩
  · rw [same]
  · rw [set, List.length_set]

theorem length_selectors_after (s : Session) (steps : List Step) :
    (s.after steps).selectors.length = s.selectors.length := by
  induction steps generalizing s with
  | nil => rfl
  | cons step steps ih => rw [after_cons, ih, length_selectors_step]

def Leads (s : Session) (handle : Nat × Ticket) : Prop :=
  ∃ selector nodes, s.selector? handle.1 = some selector ∧
    selector.nodeSets[handle.2.generation]? = some nodes ∧ handle.2.place < nodes.length

theorem Leads.step {s : Session} {handle : Nat × Ticket} (leads : s.Leads handle) (step : Step) :
    (s.step step).session.Leads handle := by
  obtain ⟨selector, nodes, here, set, place⟩ := leads
  obtain ⟨next, there, moves⟩ := moves_step here step
  refine ⟨next, nodes, there, ?_, place⟩
  rw [moves.nodeSets]
  exact getElem?_append_of_eq_some set _

/-- One step, seen from the open calls: one of them may end, or a new one be made on a candidate. -/
theorem calls_step (s : Session) (step : Step) :
    (s.step step).session.calls = s.calls ∨
      (∃ call, (s.step step).session.calls = s.calls.drop call) ∨
      ∃ handle, s.Leads handle ∧ (s.step step).session.calls = s.calls.put handle := by
  cases step with
  | apply target nodes =>
    rw [step, applyStep]
    split <;> exact Or.inl rfl
  | select target context draw =>
    rw [step, selectStep]
    cases found : s.selector? target with
    | none => exact Or.inl rfl
    | some selector =>
      dsimp only
      by_cases none : selector.pool.nodes = []
      · rw [Selector.select_of_nodes_eq_nil none]
        exact Or.inl rfl
      · obtain ⟨after, node, place, number, events, selected, serves⟩ :=
          Selector.exists_serves none context s.now draw
        rw [selected]
        refine Or.inr (Or.inr ⟨_, ⟨selector, selector.pool.nodes, found, ?_, ?_⟩, rfl⟩)
        · rw [Selector.nodeSets_getElem?, Selector.generationPool?, if_pos rfl, Option.map_some]
        · exact (List.getElem?_eq_some_iff.1 serves.node).1
  | done call outcome =>
    rw [step, doneStep]
    split
    · exact Or.inl rfl
    · dsimp only
      split
      · exact Or.inl rfl
      · exact Or.inr (Or.inl ⟨call, rfl⟩)
  | weights target =>
    rw [step, weightsStep]
    split <;> exact Or.inl rfl
  | setClock value => exact Or.inl rfl
  | advanceClock offset => exact Or.inl rfl
  | setMetering value => exact Or.inl rfl

theorem next_step (s : Session) (step : Step) :
    s.calls.next ≤ (s.step step).session.calls.next := by
  rcases calls_step s step with same | ⟨call, ended⟩ | ⟨handle, _, made⟩
  · exact Nat.le_of_eq (by rw [same])
  · exact Nat.le_of_eq (by rw [ended, Calls.next_drop])
  · rw [made, Calls.next_put]
    exact Nat.le_succ _

theorem opened_step {s : Session} {step : Step} {call : Nat} {handle : Nat × Ticket}
    (opened : (s.step step).session.calls.get? call = some handle) :
    s.calls.get? call = some handle ∨ call = s.calls.next ∧ s.Leads handle := by
  rcases calls_step s step with same | ⟨other, ended⟩ | ⟨new, leads, made⟩
  · exact Or.inl (same ▸ opened)
  · rw [ended] at opened
    exact Or.inl (Calls.get?_of_get?_drop opened)
  · rw [made] at opened
    by_cases last : call = s.calls.next
    · rw [last, Calls.get?_put_next, Option.some.injEq] at opened
      exact Or.inr ⟨last, opened ▸ leads⟩
    · rw [Calls.get?_put_of_ne _ _ last] at opened
      exact Or.inl opened

theorem opened_after {s : Session} {steps : List Step} {call : Nat} {handle : Nat × Ticket}
    (before : call < s.calls.next) (opened : (s.after steps).calls.get? call = some handle) :
    s.calls.get? call = some handle := by
  induction steps generalizing s with
  | nil => exact opened
  | cons step steps ih =>
    -- Whatever a step opens gets the next number, and that only grows.
    refine (opened_step (ih (Nat.lt_of_lt_of_le before (next_step s step)) opened)).resolve_right ?_
    exact fun new => Nat.ne_of_lt before new.1

theorem leads_after {s : Session}
    (leads : ∀ {call handle}, s.calls.get? call = some handle → s.Leads handle)
    (steps : List Step) {call : Nat} {handle : Nat × Ticket}
    (opened : (s.after steps).calls.get? call = some handle) : (s.after steps).Leads handle := by
  induction steps generalizing s with
  | nil => exact leads opened
  | cons step steps ih =>
    refine ih (fun here => ?_) opened
    cases opened_step here with
    | inl before => exact (leads before).step step
    | inr new => exact new.2.step step

end Session
end NodeSelection
