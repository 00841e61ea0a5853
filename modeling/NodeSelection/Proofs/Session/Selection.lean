import NodeSelection.Proofs.Session.Step
import NodeSelection.Config.Basic

/-! Selections in the course of a session. Whatever has happened before, a selector holds
candidates for the nodes that were last applied to it, place by place. A selection among
them succeeds unless there are none, and reaches nothing but the candidate it returns. -/

namespace NodeSelection.Session

def lastApplied? (on : Nat) (steps : List Step) : Option (List Node) :=
  (steps.filterMap (Step.applied? on)).getLast?

theorem nodes_after (b : Blueprint) {count on : Nat} (inside : on < count) (steps : List Step) :
    ∃ selector, ((ofBlueprint b count).after steps).selector? on = some selector ∧
      selector.pool.nodes = (lastApplied? on steps).getD [] := by
  obtain ⟨selector, here, moves⟩ := moves_ofBlueprint b inside steps
  have last := selector.nodeSets_getLast?
  rw [moves.nodeSets, List.getLast?_append] at last
  refine ⟨selector, here, ?_⟩
  rw [lastApplied?]
  cases applied : (steps.filterMap (Step.applied? on)).getLast? with
  | none =>
    rw [applied, Option.none_or] at last
    exact (Option.some.inj last).symm
  | some nodes =>
    rw [applied, Option.some_or] at last
    exact (Option.some.inj last).symm

theorem select_of_nodes_eq_nil {s : Session} {on : Nat} {selector : Selector}
    (here : s.selector? on = some selector) (none : selector.pool.nodes = [])
    (context : CallContext) (draw : Draw) :
    (s.step (.select on context draw)).answer = .refused .noAvailableNode context ∧
      (s.step (.select on context draw)).session = s := by
  rw [step, selectStep, here]
  dsimp only
  rw [Selector.select_of_nodes_eq_nil none]
  exact ⟨rfl, setSelector_self here⟩

structure Serves (s : Session) (on : Nat) (context : CallContext) (t : Turn)
    (before after : Selector) (node : Node) (place number : Nat) : Prop where
  selector : s.selector? on = some before
  serves : before.Serves s.now after node place number
  answer : t.answer = .selected node s.calls.next ⟨context.peer.map fun _ => ⟨some node⟩⟩
  session : t.session =
    { s.setSelector on after with calls := s.calls.put (on, ⟨before.generation, place, number⟩) }

theorem exists_serves {s : Session} {on : Nat} {selector : Selector}
    (here : s.selector? on = some selector) (some : selector.pool.nodes ≠ [])
    (context : CallContext) (draw : Draw) :
    ∃ after node place number,
      s.Serves on context (s.step (.select on context draw)) selector after node place number := by
  obtain ⟨after, node, place, number, events, selected, serves⟩ :=
    Selector.exists_serves some context s.now draw
  refine ⟨after, node, place, number, here, serves, ?_, ?_⟩
  · rw [step, selectStep, here]
    dsimp only
    rw [selected]
    rfl
  · rw [step, selectStep, here]
    dsimp only
    rw [selected]

/-- A selection is refused if no nodes or an empty list was last applied, and then nothing has
changed. Otherwise it returns one of the nodes last applied and picks the candidate for it. -/
theorem select_after (b : Blueprint) {count on : Nat} (inside : on < count) (steps : List Step)
    (context : CallContext) (draw : Draw) :
    let s := (ofBlueprint b count).after steps
    let t := s.step (.select on context draw)
    ((∃ error left, t.answer = .refused error left) ↔
        lastApplied? on steps = none ∨ lastApplied? on steps = some []) ∧
      (∀ error left, t.answer = .refused error left →
        error = .noAvailableNode ∧ left = context ∧ t.session = s) ∧
      ∀ nodes, lastApplied? on steps = some nodes → nodes ≠ [] →
        ∃ before after node place number, nodes[place]? = some node ∧
          s.Serves on context t before after node place number := by
  intro s t
  obtain ⟨selector, here, nodes⟩ := nodes_after b inside steps
  by_cases none : selector.pool.nodes = []
  · obtain ⟨refused, still⟩ := select_of_nodes_eq_nil here none context draw
    have empty : lastApplied? on steps = .none ∨ lastApplied? on steps = some [] := by
      rw [none] at nodes
      cases last : lastApplied? on steps with
      | none => exact Or.inl rfl
      | some applied =>
        rw [last, Option.getD_some] at nodes
        exact Or.inr (by rw [← nodes])
    refine ⟨⟨fun _ => empty, fun _ => ⟨_, _, refused⟩⟩, fun error left answered => ?_,
      fun applied last ne => ?_⟩
    · rw [refused, Answer.refused.injEq] at answered
      exact ⟨answered.1.symm, answered.2.symm, still⟩
    · rw [last, Option.getD_some, none] at nodes
      exact absurd nodes.symm ne
  · obtain ⟨after, node, place, number, serves⟩ := exists_serves here none context draw
    have served : ∀ error left, t.answer ≠ .refused error left := fun error left => by
      rw [serves.answer]
      exact Answer.noConfusion
    refine ⟨⟨fun ⟨error, left, answered⟩ => absurd answered (served error left), fun empty => ?_⟩,
      fun error left answered => absurd answered (served error left), fun applied last _ => ?_⟩
    · refine absurd (nodes.trans ?_) none
      cases empty with
      | inl never => rw [never, Option.getD_none]
      | inr nothing => rw [nothing, Option.getD_some]
    · rw [last, Option.getD_some] at nodes
      exact ⟨selector, after, node, place, number, nodes ▸ serves.serves.node, serves⟩

/-- A call is open on the first node set when the second one comes, and only that one is chosen
from. -/
theorem select_after_second_apply :
    ∃ node call, ((((ofBlueprint (.stock .twoChoices) 1).after
        [.apply 0 [Node.bare "http" "a", Node.bare "http" "b"], .select 0 .empty ⟨(0, 1), 0⟩,
          .apply 0 [Node.bare "http" "c"], .done 0 (.failed .canceled)]).step
            (.select 0 .withPeer ⟨(1, 0), 0⟩)).answer =
              .selected node call ⟨some ⟨some node⟩⟩) ∧ node.address = "c" := by
  obtain ⟨_, _, serves⟩ := select_after (.stock .twoChoices) (show 0 < 1 from Nat.one_pos)
    [.apply 0 [Node.bare "http" "a", Node.bare "http" "b"], .select 0 .empty ⟨(0, 1), 0⟩,
      .apply 0 [Node.bare "http" "c"], .done 0 (.failed .canceled)] .withPeer ⟨(1, 0), 0⟩
  obtain ⟨_, _, node, place, _, listed, served⟩ := serves [Node.bare "http" "c"] rfl (by simp)
  refine ⟨node, _, served.answer, ?_⟩
  rw [List.mem_singleton.1 (List.mem_of_getElem? listed)]
  rfl

end NodeSelection.Session
