import NodeSelection.Proofs.Session.Selection

/-! What the selections of a run have returned, as its turns show it. Seen from one selector a
step of a session is one of few things, and only a selection that succeeds is among those
served. -/

namespace NodeSelection

def Event.isForced : Event → Bool
  | forced _ _ => true
  | _ => false

structure Served where
  ticket : Ticket
  node : Node
  /-- The nodes that were in force. -/
  nodes : List Node
  clock : Clock
  forced : Bool

namespace Selector

theorem nodes_select (s : Selector) (context : CallContext) (now : Int) (draw : Draw) :
    (s.select context now draw).selector.pool.nodes = s.pool.nodes :=
  (s.moves_select context now draw).nodes

theorem select_of_error {s : Selector} {context : CallContext} {now : Int} {draw : Draw}
    {error : SelectionError} (refused : (s.select context now draw).result = .error error) :
    s.pool.nodes = [] ∧ (s.select context now draw).selector = s := by
  by_cases none : s.pool.nodes = []
  · rw [select_of_nodes_eq_nil none]
    exact ⟨none, rfl⟩
  · obtain ⟨after, node, place, number, events, selected, _⟩ :=
      exists_serves none context now draw
    rw [selected] at refused
    cases refused

end Selector

namespace Session

def Turn.served? (on : Nat) (t : Turn) : Option Served :=
  match t.answer with
  | .selected node call _ =>
    match t.session.calls.get? call, t.session.selector? on with
    | some (target, ticket), some selector =>
      if target = on then
        some ⟨ticket, node, selector.pool.nodes, t.session.clock, t.events.any Event.isForced⟩
      else none
    | _, _ => none
  | _ => none

theorem served?_selected {s : Session} {on target : Nat} {selector : Selector}
    (here : s.selector? on = some selector) {call : Nat} {ticket : Ticket}
    (opened : s.calls.get? call = some (target, ticket)) (node : Node) (context : CallContext)
    (events : List Event) (metered : Bool) :
    (⟨s, .selected node call context, events, metered⟩ : Turn).served? on =
      if target = on then
        some ⟨ticket, node, selector.pool.nodes, s.clock, events.any Event.isForced⟩
      else none := by
  simp only [Turn.served?, here, opened]

/-- The selections that a selector has served in the course of some steps, in order. -/
def served (s : Session) (on : Nat) (steps : List Step) : List Served :=
  (s.run steps).filterMap (Turn.served? on)

@[simp]
theorem served_nil (s : Session) (on : Nat) : s.served on [] = [] := rfl

theorem served_cons (s : Session) (on : Nat) (step : Step) (steps : List Step) :
    s.served on (step :: steps) =
      ((s.step step).served? on).toList ++ (s.step step).session.served on steps := by
  rw [served, run]
  exact filterMap_cons_toList _ _ _

theorem served_append (s : Session) (on : Nat) (first second : List Step) :
    s.served on (first ++ second) = s.served on first ++ (s.after first).served on second := by
  induction first generalizing s with
  | nil => rfl
  | cons step first ih =>
    rw [List.cons_append, served_cons, ih, served_cons, List.append_assoc]
    rfl

/-- The nodes that a step finds in force, if it is a selection that can succeed. -/
def Step.inForce? (on : Nat) (current : List Node) : Step → Option (List Node)
  | .select target _ _ => if target = on ∧ current ≠ [] then some current else none
  | _ => none

def inForce (on : Nat) (current : List Node) : List Step → List (List Node)
  | [] => []
  | step :: rest =>
    (step.inForce? on current).toList ++ inForce on ((step.applied? on).getD current) rest

/-- What one step of a session makes of one of its selectors, and what it was that was served. -/
inductive Advances (s : Session) (on : Nat) (p : Selector) : Step → Option Served → Selector → Prop
  | rest {step : Step} (unapplied : step.applied? on = none)
      (unserved : step.inForce? on p.pool.nodes = none) : Advances s on p step none p
  | apply (nodes : List Node) : Advances s on p (.apply on nodes) none (p.apply nodes).1
  | complete (call : Nat) (ticket : Ticket) (outcome : Outcome) :
      Advances s on p (.done call outcome) none (p.complete ticket s.now outcome s.journal).selector
  | weights : Advances s on p (.weights on) none (p.weights s.now).2
  | select (context : CallContext) (draw : Draw) {node : Node} {ticket : Ticket}
      (result : (p.select context s.now draw).result = .ok (node, ticket)) :
      Advances s on p (.select on context draw)
        (some ⟨ticket, node, p.pool.nodes, s.clock,
          (p.select context s.now draw).events.any Event.isForced⟩)
        (p.select context s.now draw).selector

theorem selector?_setSelector {s : Session} {on : Nat} {p : Selector}
    (here : s.selector? on = some p) (target : Nat) (q : Selector) :
    (s.setSelector target q).selector? on = some (if on = target then q else p) := by
  obtain ⟨inside, _⟩ := List.getElem?_eq_some_iff.1 here
  rw [selector?, setSelector]
  by_cases same : on = target
  · subst same
    rw [if_pos rfl, List.getElem?_set_self inside]
  · rw [if_neg same, List.getElem?_set_ne (Ne.symm same)]
    exact here

section
variable {s : Session} {on : Nat} {p : Selector} (here : s.selector? on = some p)
include here

theorem advances_setSelector {target : Nat} {old new : Selector}
    (found : s.selector? target = some old) {step : Step}
    (own : target = on → Advances s on old step none new)
    (unapplied : target ≠ on → step.applied? on = none)
    (unserved : target ≠ on → step.inForce? on p.pool.nodes = none) :
    ∃ q, (s.setSelector target new).selector? on = some q ∧ Advances s on p step none q := by
  refine ⟨_, selector?_setSelector here target new, ?_⟩
  by_cases same : on = target
  · subst same
    rw [found, Option.some.injEq] at here
    rw [if_pos rfl, ← here]
    exact own rfl
  · rw [if_neg same]
    exact .rest (unapplied (Ne.symm same)) (unserved (Ne.symm same))

theorem advances_selectStep (target : Nat) (context : CallContext) (draw : Draw) :
    ∃ q, (s.selectStep target context draw).session.selector? on = some q ∧
      Advances s on p (.select target context draw)
        ((s.selectStep target context draw).served? on) q := by
  have other (ne : target ≠ on) :
      (Step.select target context draw).inForce? on p.pool.nodes = none :=
    if_neg fun same => ne same.1
  rw [selectStep]
  cases found : s.selector? target with
  | none =>
    refine ⟨p, here, .rest rfl (other fun same => ?_)⟩
    rw [same, here] at found
    cases found
  | some old =>
    dsimp only
    cases result : (old.select context s.now draw).result with
    | error e =>
      obtain ⟨empty, still⟩ := Selector.select_of_error result
      rw [still]
      refine advances_setSelector here found (fun same => .rest rfl ?_) (fun _ => rfl) other
      exact if_neg fun some => some.2 empty
    | ok served =>
      obtain ⟨node, ticket⟩ := served
      have there := selector?_setSelector here target (old.select context s.now draw).selector
      refine ⟨_, there, ?_⟩
      rw [served?_selected
        (s := { s.setSelector target (old.select context s.now draw).selector with
          calls := s.calls.put (target, ticket) }) there (Calls.get?_put_next s.calls _)]
      by_cases same : on = target
      · subst same
        rw [found, Option.some.injEq] at here
        rw [if_pos rfl, if_pos rfl, Selector.nodes_select, ← here]
        exact .select context draw result
      · rw [if_neg (Ne.symm same), if_neg same]
        exact .rest rfl (other (Ne.symm same))

theorem advances_step (step : Step) :
    ∃ q, (s.step step).session.selector? on = some q ∧
      Advances s on p step ((s.step step).served? on) q := by
  cases step with
  | apply target nodes =>
    rw [step, applyStep]
    cases found : s.selector? target with
    | none =>
      refine ⟨p, here, .rest (if_neg fun same => ?_) rfl⟩
      rw [same, here] at found
      cases found
    | some old =>
      refine advances_setSelector here found (fun same => ?_) (fun ne => if_neg ne) fun _ => rfl
      rw [same]
      exact .apply nodes
  | select target context draw => exact advances_selectStep here target context draw
  | done call outcome =>
    rw [step, doneStep]
    cases s.calls.get? call with
    | none => exact ⟨p, here, .rest rfl rfl⟩
    | some handle =>
      obtain ⟨target, ticket⟩ := handle
      dsimp only
      cases found : s.selector? target with
      | none => exact ⟨p, here, .rest rfl rfl⟩
      | some old =>
        exact advances_setSelector here found (fun _ => .complete call ticket outcome)
          (fun _ => rfl) fun _ => rfl
  | weights target =>
    rw [step, weightsStep]
    cases found : s.selector? target with
    | none => exact ⟨p, here, .rest rfl rfl⟩
    | some old =>
      refine advances_setSelector here found (fun same => ?_) (fun _ => rfl) fun _ => rfl
      rw [same]
      exact .weights
  | setClock value => exact ⟨p, here, .rest rfl rfl⟩
  | advanceClock offset => exact ⟨p, here, .rest rfl rfl⟩
  | setMetering value => exact ⟨p, here, .rest rfl rfl⟩

end

theorem Advances.nodes {s : Session} {on : Nat} {p q : Selector} {step : Step}
    {shown : Option Served} (advances : Advances s on p step shown q) :
    q.pool.nodes = (step.applied? on).getD p.pool.nodes ∧
      shown.map Served.nodes = step.inForce? on p.pool.nodes := by
  cases advances with
  | rest unapplied unserved => exact ⟨by rw [unapplied]; rfl, unserved.symm⟩
  | apply nodes =>
    refine ⟨?_, rfl⟩
    rw [Selector.apply, Pool.nodes_pool, Step.applied?, if_pos rfl]
    rfl
  | complete call ticket outcome => exact ⟨(p.moves_complete ticket s.now outcome s.journal).nodes, rfl⟩
  | weights => exact ⟨Pool.nodes_weighAll p.pool s.now p.pool.places, rfl⟩
  | select context draw result =>
    refine ⟨p.nodes_select context s.now draw, (if_pos ⟨rfl, fun empty => ?_⟩).symm⟩
    rw [Selector.select_of_nodes_eq_nil empty] at result
    cases result

theorem nodes_served {s : Session} {on : Nat} {p : Selector} (here : s.selector? on = some p)
    (steps : List Step) : (s.served on steps).map Served.nodes = inForce on p.pool.nodes steps := by
  induction steps generalizing s p with
  | nil => rfl
  | cons step steps ih =>
    obtain ⟨q, there, advances⟩ := advances_step here step
    obtain ⟨after, shown⟩ := advances.nodes
    rw [served_cons, List.map_append, ih there, inForce, after, ← shown]
    cases (s.step step).served? on <;> rfl

end Session
end NodeSelection
