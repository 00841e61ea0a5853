import NodeSelection.Proofs.Session.Served

/-! A selector wraps every node in the same way, and so the candidates stay, whatever happens to
them: all of a selector are fixed with one default weight, or all are adaptive with one tuning, those
of superseded node sets too. -/

namespace NodeSelection

def Candidate.wrapping : Candidate → Wrapping
  | .fixed _ defaultWeight _ => .fixed defaultWeight
  | .adaptive _ tuning _ => .adaptive tuning

@[simp]
theorem Wrapping.wrapping_wrap (w : Wrapping) (node : Node) : (w.wrap node).wrapping = w := by
  cases w <;> rfl

namespace Candidate

@[simp]
theorem wrapping_weigh (c : Candidate) (now : Int) : (c.weigh now).2.wrapping = c.wrapping := by
  cases c <;> rfl

@[simp]
theorem wrapping_pick (c : Candidate) (now : Int) : (c.pick now).1.wrapping = c.wrapping := by
  cases c <;> rfl

@[simp]
theorem wrapping_complete (c : Candidate) (number : Nat) (now : Int) (outcome : Outcome)
    (journal : Journal) : (c.complete number now outcome journal).1.wrapping = c.wrapping := by
  cases c <;> rfl

theorem Asked.wrapping {now : Int} {c d : Candidate} (asked : Asked now c d) :
    d.wrapping = c.wrapping := by
  cases asked with
  | inl same => rw [same]
  | inr once => rw [once, wrapping_weigh]

end Candidate

namespace Pool

def Wrapped (w : Wrapping) (p : Pool) : Prop := ∀ place c, p.get? place = some c → c.wrapping = w

variable {w : Wrapping} {p q : Pool}

theorem wrapped_pool (w : Wrapping) (nodes : List Node) : (w.pool nodes).Wrapped w := by
  intro place c here
  rw [Wrapping.pool, get?, List.getElem?_map] at here
  obtain ⟨node, _, rfl⟩ := Option.map_eq_some_iff.1 here
  exact w.wrapping_wrap node

theorem wrapped_of_each (wrapped : p.Wrapped w) (size : q.size = p.size)
    (each : ∀ place c, p.get? place = some c →
      ∃ d, q.get? place = some d ∧ d.wrapping = c.wrapping) : q.Wrapped w := by
  intro place d there
  obtain ⟨c, here, same⟩ := exists_before size each there
  exact same.trans (wrapped place c here)

theorem Wrapped.asked {now : Int} (wrapped : p.Wrapped w) (asked : p.Asked now q) :
    q.Wrapped w := by
  refine wrapped_of_each wrapped asked.size fun place c here => ?_
  obtain ⟨d, there, one⟩ := asked.each place c here
  exact ⟨d, there, one.wrapping⟩

theorem Wrapped.picked {now : Int} {place number : Nat} (wrapped : p.Wrapped w)
    (picked : p.PickedAt now place number q) : q.Wrapped w := by
  refine wrapped_of_each wrapped picked.size fun other c here => ?_
  by_cases same : other = place
  · obtain ⟨_, d, first, asked, there, _⟩ := picked.picked
    rw [same, first] at here
    cases here
    exact ⟨_, same ▸ there, (Candidate.wrapping_pick d now).trans asked.wrapping⟩
  · obtain ⟨d, there, asked⟩ := picked.others other c same here
    exact ⟨d, there, asked.wrapping⟩

theorem Wrapped.complete (wrapped : p.Wrapped w) (place number : Nat) (now : Int)
    (outcome : Outcome) (journal : Journal) :
    (p.complete place number now outcome journal).1.Wrapped w := by
  have size := p.size_complete place number now outcome journal
  refine wrapped_of_each wrapped size fun other c here => ?_
  by_cases same : place = other
  · subst same
    exact ⟨_, get?_complete_self here number now outcome journal,
      c.wrapping_complete number now outcome journal⟩
  · exact ⟨c, (p.get?_complete_of_ne same number now outcome journal).trans here, rfl⟩

end Pool

namespace Selector

/-- All candidates of a selector were made in its way, those of earlier node sets too. -/
def Wrapped (s : Selector) : Prop :=
  ∀ generation pool, s.generationPool? generation = some pool → pool.Wrapped s.wrapping

theorem wrapped_new (wrapping : Wrapping) (balancer : Balancer) : (new wrapping balancer).Wrapped := by
  intro generation pool found
  rw [generationPool?, new] at found
  split at found
  · cases found
    intro place c here
    cases here
  · cases found

theorem Wrapped.apply {s : Selector} (wrapped : s.Wrapped) (nodes : List Node) :
    (s.apply nodes).1.Wrapped := by
  intro generation pool found
  rw [generationPool?_apply] at found
  split at found
  · cases found
    exact Pool.wrapped_pool s.wrapping nodes
  · exact wrapped generation pool found

theorem Wrapped.setGenerationPool {s : Selector} (wrapped : s.Wrapped) {generation : Nat}
    {old new : Pool} (here : s.generationPool? generation = some old)
    (pool : new.Wrapped s.wrapping) : (s.setGenerationPool generation new).Wrapped := by
  have wrapping : (s.setGenerationPool generation new).wrapping = s.wrapping := by
    rw [Selector.setGenerationPool]
    split <;> rfl
  intro other p found
  rw [wrapping]
  rw [generationPool?_setGenerationPool here] at found
  split at found
  · cases found
    exact pool
  · exact wrapped other p found

theorem Wrapped.setPool {s t : Selector} (wrapped : s.Wrapped) (wrapping : t.wrapping = s.wrapping)
    (past : t.past = s.past) (pool : t.pool.Wrapped s.wrapping) : t.Wrapped := by
  intro generation p found
  rw [wrapping]
  rw [generationPool?_of_past past] at found
  split at found
  · cases found
    exact pool
  · exact wrapped generation p found

theorem Wrapped.current {s : Selector} (wrapped : s.Wrapped) : s.pool.Wrapped s.wrapping :=
  wrapped s.generation s.pool (if_pos rfl)

theorem Wrapped.select {s : Selector} (wrapped : s.Wrapped) (context : CallContext) (now : Int)
    (draw : Draw) : (s.select context now draw).selector.Wrapped := by
  by_cases none : s.pool.nodes = []
  · rw [select_of_nodes_eq_nil none]
    exact wrapped
  · obtain ⟨after, node, place, number, events, selected, serves⟩ :=
      exists_serves none context now draw
    rw [selected]
    exact wrapped.setPool serves.wrapping serves.past (wrapped.current.picked serves.picked)

theorem Wrapped.complete {s : Selector} (wrapped : s.Wrapped) (ticket : Ticket) (now : Int)
    (outcome : Outcome) (journal : Journal) :
    (s.complete ticket now outcome journal).selector.Wrapped := by
  rw [Selector.complete]
  cases found : s.generationPool? ticket.generation with
  | none => exact wrapped
  | some pool =>
    exact wrapped.setGenerationPool found ((wrapped _ pool found).complete _ _ now outcome journal)

theorem Wrapped.weights {s : Selector} (wrapped : s.Wrapped) (now : Int) :
    (s.weights now).2.Wrapped :=
  wrapped.setPool rfl rfl (wrapped.current.asked ((Pool.Asked.refl now s.pool).weighAll _))

end Selector

namespace Session

theorem Advances.wrapped {s : Session} {on : Nat} {p q : Selector} {step : Step}
    {shown : Option Served} (advances : Advances s on p step shown q) (wrapped : p.Wrapped) :
    q.Wrapped := by
  cases advances with
  | rest => exact wrapped
  | apply nodes => exact wrapped.apply nodes
  | complete call ticket outcome => exact wrapped.complete ticket s.now outcome s.journal
  | weights => exact wrapped.weights s.now
  | select context draw => exact wrapped.select context s.now draw

def Wrapped (w : Wrapping) (s : Session) : Prop :=
  ∀ on p, s.selector? on = some p → p.wrapping = w ∧ p.Wrapped

theorem wrapped_ofBlueprint (b : Blueprint) (count : Nat) :
    (ofBlueprint b count).Wrapped b.wrapping := by
  intro on p here
  have build := List.eq_of_mem_replicate (List.mem_of_getElem? here)
  rw [build]
  exact ⟨rfl, Selector.wrapped_new b.wrapping b.balancer⟩

/-- What stands in a session after a step has come of what stood there before. -/
theorem exists_advances {s : Session} {step : Step} {on : Nat} {q : Selector}
    (there : (s.step step).session.selector? on = some q) :
    ∃ p shown, s.selector? on = some p ∧ Advances s on p step shown q ∧
      p.Moves (step.applied? on).toList q := by
  have inside : on < s.selectors.length := by
    rw [← length_selectors_step s step]
    exact (List.getElem?_eq_some_iff.1 there).1
  have here : s.selector? on = some s.selectors[on] := List.getElem?_eq_getElem inside
  obtain ⟨r, found, advances⟩ := advances_step here step
  obtain ⟨t, same, moves⟩ := moves_step here step
  rw [there, Option.some.injEq] at found same
  exact ⟨_, _, here, found ▸ advances, same ▸ moves⟩

theorem Wrapped.step {w : Wrapping} {s : Session} (wrapped : s.Wrapped w) (step : Step) :
    (s.step step).session.Wrapped w := by
  intro on q there
  obtain ⟨p, _, here, advances, moves⟩ := exists_advances there
  obtain ⟨wrapping, all⟩ := wrapped on p here
  exact ⟨moves.wrapping.trans wrapping, advances.wrapped all⟩

theorem Wrapped.after {w : Wrapping} {s : Session} (wrapped : s.Wrapped w) (steps : List Step) :
    (s.after steps).Wrapped w := by
  induction steps generalizing s with
  | nil => exact wrapped
  | cons step steps ih => exact ih (wrapped.step step)

end Session
end NodeSelection
