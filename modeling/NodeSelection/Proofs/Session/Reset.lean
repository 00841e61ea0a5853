import NodeSelection.Proofs.Session.Twins
import NodeSelection.Config.Basic

/-! A new node set makes a selector as good as new, unless it rotates. What a call from before the
apply still reaches is its own candidate, in a node set that nobody selects from any more. -/

namespace NodeSelection

namespace Selector

structure Reports (ticket : Ticket) (now : Int) (outcome : Outcome) (journal : Journal)
    (before after : Selector) : Prop where
  superseded : ticket.generation < before.generation
  wrapping : after.wrapping = before.wrapping
  balancer : after.balancer = before.balancer
  pool : after.pool = before.pool
  generation : after.generation = before.generation
  told : ∃ c, before.candidate? ticket.generation ticket.place = some c ∧
    after.candidate? ticket.generation ticket.place =
      some (c.complete ticket.number now outcome journal).1
  others : ∀ generation place, generation ≠ ticket.generation ∨ place ≠ ticket.place →
    after.candidate? generation place = before.candidate? generation place

theorem reports_complete {s : Selector} {ticket : Ticket} {c : Candidate}
    (superseded : ticket.generation < s.generation)
    (here : s.candidate? ticket.generation ticket.place = some c) (now : Int) (outcome : Outcome)
    (journal : Journal) :
    s.Reports ticket now outcome journal (s.complete ticket now outcome journal).selector := by
  obtain ⟨pool, found, place⟩ := Option.bind_eq_some_iff.1 here
  have pools := generationPool?_setGenerationPool found
    (pool.complete ticket.place ticket.number now outcome journal).1
  rw [complete, found]
  dsimp only
  refine ⟨superseded, ?_, ?_, ?_, ?_, ⟨c, here, ?_⟩, fun generation other ne => ?_⟩
  · rw [setGenerationPool, if_neg (Nat.ne_of_lt superseded)]
  · rw [setGenerationPool, if_neg (Nat.ne_of_lt superseded)]
  · rw [setGenerationPool, if_neg (Nat.ne_of_lt superseded)]
  · exact generation_setGenerationPool s _ _
  · rw [candidate?, pools, if_pos rfl]
    exact Pool.get?_complete_self place _ now outcome journal
  · rw [candidate?, pools, candidate?]
    split
    · rename_i same
      rw [same, found]
      exact Pool.get?_complete_of_ne pool (Ne.symm (ne.resolve_left (not_not_intro same))) _ now
        outcome journal
    · rfl

end Selector

namespace Session

def restart (s : Session) (b : Blueprint) : Session :=
  { s with selectors := [b.build], calls := .empty }

theorem get?_empty (call : Nat) : (Calls.empty : Calls (Nat × Ticket)).get? call = none :=
  Calls.get?_of_next_le (Nat.zero_le call)

theorem leads_ofBlueprint (b : Blueprint) (count : Nat) (steps : List Step) {call : Nat}
    {handle : Nat × Ticket}
    (opened : ((ofBlueprint b count).after steps).calls.get? call = some handle) :
    ((ofBlueprint b count).after steps).Leads handle := by
  refine leads_after (fun none => ?_) steps opened
  rw [ofBlueprint, get?_empty] at none
  cases none

theorem alone_after (b : Blueprint) (steps : List Step) :
    ∃ p, ((ofBlueprint b 1).after steps).selectors = [p] ∧
      b.build.Moves (steps.filterMap (Step.applied? 0)) p := by
  obtain ⟨p, here, moves⟩ := moves_ofBlueprint b Nat.one_pos steps
  obtain ⟨q, single⟩ := List.length_eq_one_iff.1 (length_selectors_after (ofBlueprint b 1) steps)
  rw [selector?, single, List.getElem?_cons_zero, Option.some.injEq] at here
  exact ⟨p, by rw [single, here], moves⟩

theorem eq_of_selector?_alone {s : Session} {p q : Selector} {on : Nat} (alone : s.selectors = [p])
    (here : s.selector? on = some q) : on = 0 ∧ q = p := by
  rw [selector?, alone] at here
  cases on with
  | zero => exact ⟨rfl, (Option.some.inj here).symm⟩
  | succ on => cases here

theorem session_apply {s : Session} {p : Selector} (alone : s.selectors = [p]) (nodes : List Node) :
    (s.step (.apply 0 nodes)).session = { s with selectors := [(p.apply nodes).1] } := by
  rw [step, applyStep, selector?, alone, List.getElem?_cons_zero]
  dsimp only
  rw [setSelector, alone, List.set_cons_zero]

theorem twins_apply {b : Blueprint} (other : b.algorithm ≠ .rotation) (history : List Step)
    (nodes : List Node) :
    let s := (ofBlueprint b 1).after history
    (s.step (.apply 0 nodes)).session.Twins s.calls.next
      (history.filterMap (Step.applied? 0)).length
      ((s.restart b).step (.apply 0 nodes)).session := by
  intro s
  obtain ⟨p, alone, moves⟩ := alone_after b history
  have sets : p.generation = (history.filterMap (Step.applied? 0)).length := by
    exact moves.generation.trans (Nat.zero_add _)
  have twins := Selector.twins_first_apply (p := p) (q := b.build) moves.wrapping
    (moves.balancer other) rfl nodes
  rw [session_apply alone, session_apply rfl, ← sets]
  refine ⟨rfl, rfl, ⟨_, _, rfl, rfl, twins⟩, (Nat.zero_add _).symm, fun call => ?_,
    fun {call handle} here => ?_, fun {call handle} _ here => ?_⟩
  · exact (Calls.get?_of_next_le (Nat.le_add_left _ _)).trans (by rw [restart, get?_empty]; rfl)
  · rw [restart, get?_empty] at here
    cases here
  · -- An open call leads to a candidate, so its ticket is for a set that was in force by then.
    obtain ⟨q, _, there, set, _⟩ := leads_ofBlueprint b 1 history here
    obtain ⟨_, rfl⟩ := eq_of_selector?_alone alone there
    have inside := (List.getElem?_eq_some_iff.1 set).1
    rw [Selector.length_nodeSets] at inside
    exact Nat.le_of_lt_succ inside

theorem Twins.done_old {calls sets : Nat} {s f : Session} (twins : s.Twins calls sets f)
    {call on : Nat} {ticket : Ticket} (before : call < calls)
    (opened : s.calls.get? call = some (on, ticket)) (leads : s.Leads (on, ticket))
    (outcome : Outcome) :
    ∃ p q journal, s.selector? on = some p ∧ p.Reports ticket s.now outcome s.journal q ∧
      (s.step (.done call outcome)).session =
        { s.setSelector on q with calls := s.calls.drop call, journal := journal } := by
  obtain ⟨p, nodes, here, set, inside⟩ := leads
  obtain ⟨c, candidate⟩ := Selector.exists_candidate set inside
  have superseded : ticket.generation < p.generation := by
    obtain ⟨p', q, alone, _, same⟩ := twins.selectors
    obtain ⟨_, rfl⟩ := eq_of_selector?_alone alone here
    exact Nat.lt_of_le_of_lt (twins.calls.old before opened) same.sets_lt
  refine ⟨p, (p.complete ticket s.now outcome s.journal).selector,
    (p.complete ticket s.now outcome s.journal).journal, here,
    Selector.reports_complete superseded candidate s.now outcome s.journal, ?_⟩
  rw [Session.step, Session.doneStep, opened]
  dsimp only
  rw [here]

/-- After an apply a selector goes on as one does that was built only then, whatever its history.
Calls from before the apply may end in between: each does so in its own superseded candidate. -/
theorem apply_resets {b : Blueprint} (other : b.algorithm ≠ .rotation) (history : List Step)
    (nodes : List Node) (steps : List Step) :
    let before := (ofBlueprint b 1).after history
    let calls := before.calls.next
    let sets := (history.filterMap (Step.applied? 0)).length
    let aged := before.after (.apply 0 nodes :: steps)
    let fresh := (before.restart b).after (.apply 0 nodes :: steps.filterMap (Step.since calls))
    aged.Twins calls sets fresh ∧
      (∀ step later, step.since calls = some later →
        (aged.step step).Twins calls sets (fresh.step later)) ∧
      ∀ call < calls, ∀ outcome,
        (aged.step (.done call outcome)).session.Twins calls sets fresh ∧
          (aged.calls.get? call = none → (aged.step (.done call outcome)).session = aged) ∧
          ∀ on ticket, aged.calls.get? call = some (on, ticket) →
            before.calls.get? call = some (on, ticket) ∧
              ∃ p q journal, aged.selector? on = some p ∧
                p.Reports ticket aged.now outcome aged.journal q ∧
                (aged.step (.done call outcome)).session =
                  { aged.setSelector on q with
                    calls := aged.calls.drop call
                    journal := journal } := by
  intro before calls sets aged fresh
  have twins : aged.Twins calls sets fresh := (twins_apply other history nodes).after steps
  refine ⟨twins, fun step later since => twins.step since, fun call old outcome =>
    ⟨twins.step_old (by rw [Step.since, if_pos old]), fun none => ?_, fun on ticket opened =>
      ⟨opened_after old opened, twins.done_old old opened ?_ outcome⟩⟩⟩
  · rw [Session.step, Session.doneStep, none]
    rfl
  · have whole : aged = (ofBlueprint b 1).after (history ++ .apply 0 nodes :: steps) := by
      rw [after_append]
    rw [whole] at opened ⊢
    exact leads_ofBlueprint b 1 _ opened

/-- A call on a is open when the list changes and ends before the next selection, which is answered
like the first one of all. -/
theorem apply_resets_open_call :
    let b := Blueprint.stock .twoChoices
    let next := Step.select 0 .withPeer ⟨(1, 0), 0⟩
    let before := (ofBlueprint b 1).after
      [.apply 0 [Node.bare "http" "a"], .select 0 .empty ⟨(0, 0), 0⟩]
    let aged := before.after
      [.apply 0 [Node.bare "http" "a", Node.bare "http" "b"], .done 0 (.failed .canceled)]
    let fresh := (before.restart b).after [.apply 0 [Node.bare "http" "a", Node.bare "http" "b"]]
    b.algorithm ≠ .rotation ∧ before.calls.next = 1 ∧
      (aged.step next).answer = (fresh.step next).answer.age 1 := by
  intro b next before aged fresh
  have other : b.algorithm ≠ .rotation := by decide
  have resets := apply_resets other
    [.apply 0 [Node.bare "http" "a"], .select 0 .empty ⟨(0, 0), 0⟩]
    [Node.bare "http" "a", Node.bare "http" "b"] [.done 0 (.failed .canceled)]
  exact ⟨other, rfl, (resets.2.1 next next rfl).answer⟩

end Session
end NodeSelection
