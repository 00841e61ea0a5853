import NodeSelection.Proofs.Session.Step

/-! Two sessions that go on alike, though one of them has a longer past. Node sets and calls of the
older one carry higher numbers; it may also hear of the end of calls that the younger one
knows nothing of. What the two answer is the same, number for number. -/

namespace NodeSelection

def Ticket.age (sets : Nat) (t : Ticket) : Ticket := { t with generation := t.generation + sets }

namespace Selector

/-- The older selector had some more node sets in force, before the first that was applied to the
younger one. Since then there is no difference. -/
structure Twins (sets : Nat) (older younger : Selector) : Prop where
  wrapping : older.wrapping = younger.wrapping
  balancer : older.balancer = younger.balancer
  pool : older.pool = younger.pool
  generation : older.generation = younger.generation + sets
  /-- The set that the first apply superseded is left out, as the younger one had none. -/
  past : older.past.drop (sets + 1) = younger.past.drop 1
  pos : 0 < younger.generation

end Selector

structure Selection.Twins (sets : Nat) (older younger : Selection) : Prop where
  selector : older.selector.Twins sets younger.selector
  context : older.context = younger.context
  events : older.events = younger.events
  result : older.result = younger.result.map (Prod.map id (Ticket.age sets))

namespace Selector

section
variable {sets : Nat} {p q : Selector}

theorem Twins.algorithm (twins : Twins sets p q) : p.algorithm = q.algorithm := by
  rw [Selector.algorithm, twins.balancer, Selector.algorithm]

theorem Twins.sets_lt (twins : Twins sets p q) : sets < p.generation := by
  rw [twins.generation]
  exact Nat.lt_add_of_pos_left twins.pos

theorem twins_first_apply (wrapping : p.wrapping = q.wrapping) (balancer : p.balancer = q.balancer)
    (new : q.past = []) (nodes : List Node) :
    Twins p.generation (p.apply nodes).1 (q.apply nodes).1 where
  wrapping := wrapping
  balancer := balancer
  pool := by rw [apply, apply, wrapping]
  generation := by
    have zero : q.generation = 0 := by rw [generation, new, List.length_nil]
    rw [generation_apply, generation_apply, zero, Nat.zero_add, Nat.add_comm]
  past := by simp [apply, generation, new]
  pos := by
    rw [generation_apply]
    exact Nat.succ_pos _

theorem Twins.apply (twins : Twins sets p q) (nodes : List Node) :
    Twins sets (p.apply nodes).1 (q.apply nodes).1 ∧ (p.apply nodes).2 = (q.apply nodes).2 := by
  refine ⟨⟨twins.wrapping, twins.balancer, ?_, ?_, ?_, ?_⟩, ?_⟩
  · rw [Selector.apply, Selector.apply, twins.wrapping]
  · rw [generation_apply, generation_apply, twins.generation, Nat.add_right_comm]
  · rw [Selector.apply, Selector.apply]
    dsimp only
    rw [List.drop_append_of_le_length twins.sets_lt, List.drop_append_of_le_length twins.pos,
      twins.past, twins.pool]
  · rw [generation_apply]
    exact Nat.succ_pos _
  · rw [Selector.apply, Selector.apply, twins.algorithm]

theorem Twins.past_getElem? (twins : Twins sets p q) {generation : Nat} (pos : 0 < generation) :
    p.past[generation + sets]? = q.past[generation]? := by
  obtain ⟨earlier, rfl⟩ := Nat.exists_eq_add_of_lt pos
  -- What is compared begins with the first set that the younger one was given.
  have same : (p.past.drop (sets + 1))[earlier]? = (q.past.drop 1)[earlier]? := by rw [twins.past]
  rw [List.getElem?_drop, List.getElem?_drop] at same
  rwa [show 0 + earlier + 1 + sets = sets + 1 + earlier by omega,
    show 0 + earlier + 1 = 1 + earlier by omega]

theorem Twins.generationPool? (twins : Twins sets p q) {generation : Nat} (pos : 0 < generation) :
    p.generationPool? (generation + sets) = q.generationPool? generation := by
  rw [Selector.generationPool?, Selector.generationPool?, twins.generation, twins.pool,
    twins.past_getElem? pos]
  simp only [Nat.add_right_cancel_iff]

theorem Twins.setGenerationPool (twins : Twins sets p q) {generation : Nat} (pos : 0 < generation)
    (pool : Pool) :
    Twins sets (p.setGenerationPool (generation + sets) pool)
      (q.setGenerationPool generation pool) := by
  rw [Selector.setGenerationPool, Selector.setGenerationPool, twins.generation]
  by_cases current : generation = q.generation
  · rw [if_pos (by rw [current]), if_pos current]
    exact ⟨twins.wrapping, twins.balancer, rfl, twins.generation, twins.past, twins.pos⟩
  · rw [if_neg (by omega), if_neg current]
    refine ⟨twins.wrapping, twins.balancer, twins.pool, ?_, ?_, ?_⟩
    · simpa [Selector.generation] using twins.generation
    · dsimp only
      rw [List.drop_set, List.drop_set, if_neg (by omega), if_neg (by omega), twins.past,
        show generation + sets - (sets + 1) = generation - 1 by omega]
    · simpa [Selector.generation] using twins.pos

theorem Twins.setGenerationPool_old (twins : Twins sets p q) {generation : Nat}
    (old : generation ≤ sets) (pool : Pool) : Twins sets (p.setGenerationPool generation pool) q := by
  have superseded : generation ≠ p.generation := Nat.ne_of_lt (Nat.lt_of_le_of_lt old twins.sets_lt)
  rw [Selector.setGenerationPool, if_neg superseded]
  refine ⟨twins.wrapping, twins.balancer, twins.pool, ?_, ?_, twins.pos⟩
  · simpa [Selector.generation] using twins.generation
  · dsimp only
    rw [List.drop_set, if_pos (by omega), twins.past]

theorem Twins.complete (twins : Twins sets p q) {ticket : Ticket} (pos : 0 < ticket.generation)
    (now : Int) (outcome : Outcome) (older younger : Journal) :
    Twins sets (p.complete (ticket.age sets) now outcome older).selector
        (q.complete ticket now outcome younger).selector ∧
      (p.complete (ticket.age sets) now outcome older).events =
        (q.complete ticket now outcome younger).events := by
  rw [Selector.complete, Selector.complete, Ticket.age, twins.generationPool? pos]
  cases q.generationPool? ticket.generation with
  | none => exact ⟨twins, rfl⟩
  | some pool =>
    obtain ⟨same, told⟩ := pool.complete_journal ticket.place ticket.number now outcome older younger
    dsimp only
    rw [same, told]
    exact ⟨twins.setGenerationPool pos _, rfl⟩

theorem Twins.complete_old (twins : Twins sets p q) {ticket : Ticket}
    (old : ticket.generation ≤ sets) (now : Int) (outcome : Outcome) (journal : Journal) :
    Twins sets (p.complete ticket now outcome journal).selector q := by
  rw [Selector.complete]
  cases p.generationPool? ticket.generation with
  | none => exact twins
  | some pool => exact twins.setGenerationPool_old old _

theorem Twins.weights (twins : Twins sets p q) (now : Int) :
    Twins sets (p.weights now).2 (q.weights now).2 ∧ (p.weights now).1 = (q.weights now).1 := by
  rw [Selector.weights, Selector.weights, twins.pool]
  exact ⟨⟨twins.wrapping, twins.balancer, rfl, twins.generation, twins.past, twins.pos⟩, rfl⟩

theorem generation_of_select {s : Selector} {context : CallContext} {now : Int} {draw : Draw}
    {node : Node} {ticket : Ticket}
    (selected : (s.select context now draw).result = .ok (node, ticket)) :
    ticket.generation = s.generation := by
  rw [Selector.select] at selected
  split at selected
  · cases selected
  · split at selected
    · cases selected
    · cases selected
      rfl

theorem Twins.select (twins : Twins sets p q) (context : CallContext) (now : Int) (draw : Draw) :
    (p.select context now draw).Twins sets (q.select context now draw) := by
  rw [Selector.select, Selector.select, twins.balancer, twins.pool, twins.algorithm]
  split
  · exact ⟨twins, rfl, rfl, rfl⟩
  · split
    · exact ⟨twins, rfl, rfl, rfl⟩
    · refine ⟨⟨twins.wrapping, rfl, rfl, twins.generation, twins.past, twins.pos⟩, rfl, rfl, ?_⟩
      rw [twins.generation]
      rfl

end

end Selector

namespace Calls

/-- The older calls are some more, and the tickets that were issued before the younger ones began
are for node sets from before then. -/
structure Twins (calls sets : Nat) (older younger : Calls (Nat × Ticket)) : Prop where
  next : older.next = younger.next + calls
  recent : ∀ call, older.get? (call + calls) =
    (younger.get? call).map (Prod.map id (Ticket.age sets))
  issued : ∀ {call handle}, younger.get? call = some handle → 0 < handle.2.generation
  old : ∀ {call handle}, call < calls → older.get? call = some handle → handle.2.generation ≤ sets

variable {calls sets : Nat} {c d : Calls (Nat × Ticket)}

theorem Twins.put (twins : Twins calls sets c d) (on : Nat) {ticket : Ticket}
    (pos : 0 < ticket.generation) :
    Twins calls sets (c.put (on, ticket.age sets)) (d.put (on, ticket)) where
  next := by rw [next_put, next_put, twins.next, Nat.add_right_comm]
  recent call := by
    by_cases same : call = d.next
    · rw [same, ← twins.next, get?_put_next, get?_put_next]
      rfl
    · rw [get?_put_of_ne d _ same, get?_put_of_ne c _ (by rw [twins.next]; omega), twins.recent]
  issued {call handle} here := by
    by_cases same : call = d.next
    · rw [same, get?_put_next, Option.some.injEq] at here
      rwa [← here]
    · rw [get?_put_of_ne d _ same] at here
      exact twins.issued here
  old {call handle} before here := by
    rw [get?_put_of_ne c _ (by rw [twins.next]; omega)] at here
    exact twins.old before here

theorem Twins.drop (twins : Twins calls sets c d) (call : Nat) :
    Twins calls sets (c.drop (call + calls)) (d.drop call) where
  next := by rw [next_drop, next_drop, twins.next]
  recent other := by
    by_cases same : other = call
    · rw [same, get?_drop_self, get?_drop_self]
      rfl
    · rw [get?_drop_of_ne d same, get?_drop_of_ne c (by omega), twins.recent]
  issued here := twins.issued (get?_of_get?_drop here)
  old before here := twins.old before (get?_of_get?_drop here)

theorem Twins.drop_old (twins : Twins calls sets c d) {call : Nat} (before : call < calls) :
    Twins calls sets (c.drop call) d where
  next := by rw [next_drop, twins.next]
  recent other := by rw [get?_drop_of_ne c (by omega), twins.recent]
  issued := twins.issued
  old before here := twins.old before (get?_of_get?_drop here)

end Calls

namespace Session

structure Twins (calls sets : Nat) (older younger : Session) : Prop where
  clock : older.clock = younger.clock
  metering : older.metering = younger.metering
  selectors : ∃ p q, older.selectors = [p] ∧ younger.selectors = [q] ∧ p.Twins sets q
  calls : Calls.Twins calls sets older.calls younger.calls

def Answer.age (calls : Nat) : Answer → Answer
  | .selected node call context => .selected node (call + calls) context
  | answer => answer

structure Turn.Twins (calls sets : Nat) (older younger : Turn) : Prop where
  session : older.session.Twins calls sets younger.session
  answer : older.answer = younger.answer.age calls
  events : older.events = younger.events
  metered : older.metered = younger.metered

/-- The same step where some fewer calls were made, unless it ends one of those. -/
def Step.since (calls : Nat) : Step → Option Step
  | .done call outcome => if call < calls then none else some (.done (call - calls) outcome)
  | step => some step

section
variable {calls sets : Nat} {s f : Session}

theorem Twins.now (twins : Twins calls sets s f) : s.now = f.now := by
  rw [Session.now, Session.now, twins.clock]

theorem Twins.selector? (twins : Twins calls sets s f) (on : Nat) :
    s.selector? on = none ∧ f.selector? on = none ∨
      ∃ p q, on = 0 ∧ s.selector? on = some p ∧ f.selector? on = some q ∧ p.Twins sets q := by
  obtain ⟨p, q, older, younger, same⟩ := twins.selectors
  rw [Session.selector?, Session.selector?, older, younger]
  cases on with
  | zero => exact Or.inr ⟨p, q, rfl, rfl, rfl, same⟩
  | succ on => exact Or.inl ⟨rfl, rfl⟩

theorem Twins.setSelector (twins : Twins calls sets s f) {p q : Selector} (same : p.Twins sets q) :
    (s.setSelector 0 p).Twins calls sets (f.setSelector 0 q) := by
  obtain ⟨_, _, older, younger, _⟩ := twins.selectors
  refine ⟨twins.clock, twins.metering, ⟨p, q, ?_, ?_, same⟩, twins.calls⟩
  · rw [Session.setSelector, older]
    rfl
  · rw [Session.setSelector, younger]
    rfl

theorem Twins.setCalls (twins : Twins calls sets s f) {c d : Calls (Nat × Ticket)}
    (same : Calls.Twins calls sets c d) (one other : Journal) :
    Twins calls sets { s with calls := c, journal := one }
      { f with calls := d, journal := other } :=
  ⟨twins.clock, twins.metering, twins.selectors, same⟩

theorem Twins.applyStep (twins : Twins calls sets s f) (on : Nat) (nodes : List Node) :
    (s.applyStep on nodes).Twins calls sets (f.applyStep on nodes) := by
  rw [Session.applyStep, Session.applyStep]
  rcases twins.selector? on with ⟨none, none'⟩ | ⟨p, q, rfl, here, there, same⟩
  · rw [none, none']
    exact ⟨twins, rfl, rfl, twins.metering⟩
  · rw [here, there]
    obtain ⟨applied, events⟩ := same.apply nodes
    refine ⟨twins.setSelector applied, ?_, events, twins.metering⟩
    dsimp only
    rw [applied.pool]
    rfl

theorem Twins.selectStep (twins : Twins calls sets s f) (on : Nat) (context : CallContext)
    (draw : Draw) :
    (s.selectStep on context draw).Twins calls sets (f.selectStep on context draw) := by
  rw [Session.selectStep, Session.selectStep]
  rcases twins.selector? on with ⟨none, none'⟩ | ⟨p, q, rfl, here, there, same⟩
  · rw [none, none']
    exact ⟨twins, rfl, rfl, twins.metering⟩
  · rw [here, there]
    dsimp only
    have selected := same.select context s.now draw
    rw [← twins.now, selected.result]
    cases chosen : (q.select context s.now draw).result with
    | error e =>
      refine ⟨twins.setSelector selected.selector, ?_, selected.events, twins.metering⟩
      dsimp only [Except.map]
      rw [selected.context]
      rfl
    | ok served =>
      obtain ⟨node, ticket⟩ := served
      have pos : 0 < ticket.generation := by
        rw [Selector.generation_of_select chosen]
        exact same.pos
      refine ⟨(twins.setSelector selected.selector).setCalls (twins.calls.put 0 pos) _ _, ?_,
        selected.events, twins.metering⟩
      dsimp only [Except.map, Prod.map, id]
      rw [selected.context, twins.calls.next]
      rfl

theorem Twins.doneStep (twins : Twins calls sets s f) (call : Nat) (outcome : Outcome) :
    (s.doneStep (call + calls) outcome).Twins calls sets (f.doneStep call outcome) := by
  rw [Session.doneStep, Session.doneStep, twins.calls.recent]
  cases opened : f.calls.get? call with
  | none => exact ⟨twins, rfl, rfl, twins.metering⟩
  | some handle =>
    obtain ⟨on, ticket⟩ := handle
    dsimp only [Option.map, Prod.map, id]
    rcases twins.selector? on with ⟨none, none'⟩ | ⟨p, q, rfl, here, there, same⟩
    · rw [none, none']
      exact ⟨twins, rfl, rfl, twins.metering⟩
    · rw [here, there]
      dsimp only
      obtain ⟨completed, told⟩ :=
        same.complete (twins.calls.issued opened) s.now outcome s.journal f.journal
      rw [told, ← twins.now]
      exact ⟨(twins.setSelector completed).setCalls (twins.calls.drop call) _ _, rfl, rfl,
        twins.metering⟩

theorem Twins.weightsStep (twins : Twins calls sets s f) (on : Nat) :
    (s.weightsStep on).Twins calls sets (f.weightsStep on) := by
  rw [Session.weightsStep, Session.weightsStep]
  rcases twins.selector? on with ⟨none, none'⟩ | ⟨p, q, rfl, here, there, same⟩
  · rw [none, none']
    exact ⟨twins, rfl, rfl, twins.metering⟩
  · rw [here, there]
    obtain ⟨weighed, values⟩ := same.weights s.now
    dsimp only
    rw [values, ← twins.now]
    exact ⟨twins.setSelector weighed, rfl, rfl, twins.metering⟩

theorem Twins.step (twins : Twins calls sets s f) {step later : Step}
    (since : step.since calls = some later) :
    (s.step step).Twins calls sets (f.step later) := by
  cases step with
  | done call outcome =>
    rw [Step.since] at since
    split at since
    · cases since
    · rename_i recent
      obtain ⟨call, rfl⟩ := Nat.exists_eq_add_of_le' (Nat.le_of_not_lt recent)
      rw [Nat.add_sub_cancel, Option.some.injEq] at since
      rw [← since]
      exact twins.doneStep call outcome
  | apply on nodes =>
    cases since
    exact twins.applyStep on nodes
  | select on context draw =>
    cases since
    exact twins.selectStep on context draw
  | weights on =>
    cases since
    exact twins.weightsStep on
  | setClock value =>
    cases since
    refine ⟨⟨?_, twins.metering, twins.selectors, twins.calls⟩, rfl, rfl, twins.metering⟩
    rw [Session.step, Session.step, twins.clock]
    rfl
  | advanceClock offset =>
    cases since
    refine ⟨⟨?_, twins.metering, twins.selectors, twins.calls⟩, rfl, rfl, twins.metering⟩
    rw [Session.step, Session.step, twins.clock]
    rfl
  | setMetering value =>
    cases since
    exact ⟨⟨twins.clock, rfl, twins.selectors, twins.calls⟩, rfl, rfl, rfl⟩

theorem Twins.step_old (twins : Twins calls sets s f) {step : Step}
    (since : step.since calls = none) : (s.step step).session.Twins calls sets f := by
  cases step with
  | done call outcome =>
    rw [Step.since] at since
    split at since
    · rename_i before
      -- The ticket is for an old node set, and the younger session stays as it is.
      rw [Session.step, Session.doneStep]
      cases opened : s.calls.get? call with
      | none => exact twins
      | some handle =>
        obtain ⟨on, ticket⟩ := handle
        dsimp only
        rcases twins.selector? on with ⟨none, _⟩ | ⟨p, q, rfl, here, there, same⟩
        · rw [none]
          exact twins
        · rw [here]
          have completed := twins.setSelector
            (same.complete_old (twins.calls.old before opened) s.now outcome s.journal)
          rw [setSelector_self there] at completed
          exact ⟨completed.clock, completed.metering, completed.selectors,
            twins.calls.drop_old before⟩
    · cases since
  | apply on nodes => cases since
  | select on context draw => cases since
  | weights on => cases since
  | setClock value => cases since
  | advanceClock offset => cases since
  | setMetering value => cases since

theorem Twins.after (twins : Twins calls sets s f) (steps : List Step) :
    (s.after steps).Twins calls sets (f.after (steps.filterMap (Step.since calls))) := by
  -- The younger session takes part in a step or stays as it is.
  induction steps generalizing s f with
  | nil => exact twins
  | cons step steps ih =>
    cases since : step.since calls with
    | none =>
      rw [List.filterMap_cons_none since]
      exact ih (twins.step_old since)
    | some later =>
      rw [List.filterMap_cons_some since]
      exact ih (twins.step since).session

end

end Session
end NodeSelection
