import NodeSelection.Proofs.Session.Latency

/-! One selector of a session, where there are others and where there are none. A step on it does the
same in both, and a step on another one leaves it as it is. Its own calls have lower numbers where it
is alone, each the number of own calls before it. -/

namespace NodeSelection

/-- The number of a call among those that were made by the same selector. -/
def rank (callers : List Nat) (on call : Nat) : Nat := (callers.take call).count on

section
variable {callers : List Nat} {on call : Nat}

theorem rank_length (callers : List Nat) (on : Nat) :
    rank callers on callers.length = callers.count on := by
  rw [rank, List.take_length]

theorem rank_append (inside : call ≤ callers.length) (more : List Nat) :
    rank (callers ++ more) on call = rank callers on call := by
  rw [rank, List.take_append_of_le_length inside, rank]

theorem rank_lt (own : callers[call]? = some on) {later : Nat} (after : call < later) :
    rank callers on call < rank callers on later := by
  obtain ⟨inside, own⟩ := List.getElem?_eq_some_iff.1 own
  have one : (callers.take (call + 1)).count on = rank callers on call + 1 := by
    rw [List.take_succ_eq_append_getElem inside, own, List.count_append, List.count_singleton_self,
      rank]
  have grows := ((callers.take_prefix_take_left (show call + 1 ≤ later from after)).sublist).count_le on
  rw [one] at grows
  exact grows

theorem rank_lt_count (own : callers[call]? = some on) : rank callers on call < callers.count on := by
  rw [← rank_length]
  exact rank_lt own (List.getElem?_eq_some_iff.1 own).1

theorem rank_ne (own : callers[call]? = some on) {other : Nat} (others : callers[other]? = some on)
    (ne : call ≠ other) : rank callers on call ≠ rank callers on other := by
  rcases Nat.lt_or_gt_of_ne ne with before | after
  · exact Nat.ne_of_lt (rank_lt own before)
  · exact Nat.ne_of_gt (rank_lt others after)

end

namespace Calls

/-- The open calls of one selector, where all of them are and where there are no others. -/
structure Mirrors (on : Nat) (callers : List Nat) (all alone : Calls (Nat × Ticket)) : Prop where
  next : all.next = callers.length
  count : alone.next = callers.count on
  caller : ∀ {call handle}, all.get? call = some handle → callers[call]? = some handle.1
  own : ∀ {call}, callers[call]? = some on → all.get? call = alone.get? (rank callers on call)

section
variable {on : Nat} {callers : List Nat} {c d : Calls (Nat × Ticket)}

theorem mirrors_empty (on : Nat) : Mirrors on [] .empty .empty where
  next := rfl
  count := rfl
  caller {call _} opened := by
    rw [get?_of_next_le (Nat.zero_le call)] at opened
    cases opened
  own own := by cases own

theorem Mirrors.caller_put (mirrors : Mirrors on callers c d) (target : Nat) (ticket : Ticket)
    {call : Nat} {handle : Nat × Ticket} (opened : (c.put (target, ticket)).get? call = some handle) :
    (callers ++ [target])[call]? = some handle.1 := by
  by_cases last : call = c.next
  · rw [last, get?_put_next, Option.some.injEq] at opened
    rw [last, mirrors.next, List.getElem?_concat_length, ← opened]
  · rw [get?_put_of_ne _ _ last] at opened
    exact getElem?_append_of_eq_some (mirrors.caller opened) _

theorem Mirrors.put (mirrors : Mirrors on callers c d) (ticket : Ticket) :
    Mirrors on (callers ++ [on]) (c.put (on, ticket)) (d.put (on, ticket)) where
  next := by rw [next_put, mirrors.next, List.length_append, List.length_singleton]
  count := by rw [next_put, mirrors.count, List.count_append, List.count_singleton_self]
  caller opened := mirrors.caller_put on ticket opened
  own {call} own := by
    rcases Nat.lt_or_ge call callers.length with before | last
    · rw [List.getElem?_append_left before] at own
      have low : rank callers on call ≠ d.next := by
        rw [mirrors.count]
        exact Nat.ne_of_lt (rank_lt_count own)
      rw [rank_append (Nat.le_of_lt before), get?_put_of_ne d _ low,
        get?_put_of_ne c _ (by rw [mirrors.next]; exact Nat.ne_of_lt before), mirrors.own own]
    · have inside := (List.getElem?_eq_some_iff.1 own).1
      rw [List.length_append, List.length_singleton] at inside
      have same : call = callers.length := Nat.le_antisymm (Nat.le_of_lt_succ inside) last
      rw [same, rank_append (Nat.le_refl _), rank_length, ← mirrors.count, ← mirrors.next,
        get?_put_next, get?_put_next]

theorem Mirrors.put_other (mirrors : Mirrors on callers c d) {target : Nat} (other : target ≠ on)
    (ticket : Ticket) : Mirrors on (callers ++ [target]) (c.put (target, ticket)) d where
  next := by rw [next_put, mirrors.next, List.length_append, List.length_singleton]
  count := by
    rw [mirrors.count, List.count_append, List.count_singleton, if_neg (by simpa using other),
      Nat.add_zero]
  caller opened := mirrors.caller_put target ticket opened
  own {call} own := by
    rcases Nat.lt_or_ge call callers.length with before | last
    · rw [List.getElem?_append_left before] at own
      rw [rank_append (Nat.le_of_lt before),
        get?_put_of_ne c _ (by rw [mirrors.next]; exact Nat.ne_of_lt before), mirrors.own own]
    · have inside := (List.getElem?_eq_some_iff.1 own).1
      rw [List.length_append, List.length_singleton] at inside
      rw [Nat.le_antisymm (Nat.le_of_lt_succ inside) last, List.getElem?_concat_length,
        Option.some.injEq] at own
      exact absurd own other

theorem Mirrors.drop (mirrors : Mirrors on callers c d) {call : Nat} (own : callers[call]? = some on) :
    Mirrors on callers (c.drop call) (d.drop (rank callers on call)) where
  next := by rw [next_drop, mirrors.next]
  count := by rw [next_drop, mirrors.count]
  caller opened := mirrors.caller (get?_of_get?_drop opened)
  own {other} others := by
    by_cases same : other = call
    · rw [same, get?_drop_self, get?_drop_self]
    · rw [get?_drop_of_ne c same, get?_drop_of_ne d (rank_ne others own same), mirrors.own others]

theorem Mirrors.drop_other (mirrors : Mirrors on callers c d) {call : Nat}
    (other : callers[call]? ≠ some on) : Mirrors on callers (c.drop call) d where
  next := by rw [next_drop, mirrors.next]
  count := mirrors.count
  caller opened := mirrors.caller (get?_of_get?_drop opened)
  own {late} own := by
    have ne : late ≠ call := fun same => other (by rw [← same, own])
    rw [get?_drop_of_ne c ne, mirrors.own own]

end

end Calls

namespace Session

def caller? (s : Session) : Step → Option Nat
  | .select on context draw => (s.returned? (.select on context draw)).map fun _ => on
  | _ => none

/-- A step as it is where there is only one selector, if it concerns that one: its own steps, the ends
of its own calls under their own numbers, and the clock and the switch that all selectors share. -/
def Step.of (on : Nat) (callers : List Nat) : Step → Option Step
  | .apply target nodes => if target = on then some (.apply target nodes) else none
  | .select target context draw => if target = on then some (.select target context draw) else none
  | .weights target => if target = on then some (.weights target) else none
  | .done call outcome =>
    if callers[call]? = some on then some (.done (rank callers on call) outcome) else none
  | step => some step

def Answer.renumber (call : Nat) : Answer → Answer
  | .selected node _ context => .selected node call context
  | answer => answer

structure Mirrors (on : Nat) (callers : List Nat) (s f : Session) : Prop where
  clock : s.clock = f.clock
  metering : s.metering = f.metering
  selector : s.selector? on = f.selector? on
  calls : Calls.Mirrors on callers s.calls f.calls

structure Turn.Mirrors (on : Nat) (callers later : List Nat) (t u : Turn) : Prop where
  session : t.session.Mirrors on later u.session
  answer : u.answer = t.answer.renumber (callers.count on)
  events : t.events = u.events
  metered : t.metered = u.metered

section
variable {on : Nat} {callers : List Nat} {s f : Session}

theorem Mirrors.now (mirrors : s.Mirrors on callers f) : s.now = f.now := by
  rw [Session.now, Session.now, mirrors.clock]

theorem Mirrors.setSelector (mirrors : s.Mirrors on callers f) {p : Selector}
    (here : s.selector? on = some p) (q : Selector) :
    (s.setSelector on q).Mirrors on callers (f.setSelector on q) := by
  have there : f.selector? on = some p := mirrors.selector ▸ here
  refine ⟨mirrors.clock, mirrors.metering, ?_, mirrors.calls⟩
  rw [selector?_setSelector here, selector?_setSelector there]

theorem Mirrors.setSelector_other (mirrors : s.Mirrors on callers f) {target : Nat}
    (other : target ≠ on) (q : Selector) : (s.setSelector target q).Mirrors on callers f := by
  refine ⟨mirrors.clock, mirrors.metering, ?_, mirrors.calls⟩
  rw [← mirrors.selector]
  exact List.getElem?_set_ne other

theorem Mirrors.setCalls (mirrors : s.Mirrors on callers f) {later : List Nat}
    {c d : Calls (Nat × Ticket)} (calls : Calls.Mirrors on later c d) (one other : Journal) :
    Mirrors on later { s with calls := c, journal := one }
      { f with calls := d, journal := other } :=
  ⟨mirrors.clock, mirrors.metering, mirrors.selector, calls⟩

theorem Mirrors.applyStep (mirrors : s.Mirrors on callers f) (nodes : List Node) :
    (s.applyStep on nodes).Mirrors on callers callers (f.applyStep on nodes) := by
  rw [Session.applyStep, Session.applyStep, ← mirrors.selector]
  cases here : s.selector? on with
  | none => exact ⟨mirrors, rfl, rfl, mirrors.metering⟩
  | some p => exact ⟨mirrors.setSelector here _, rfl, rfl, mirrors.metering⟩

theorem Mirrors.weightsStep (mirrors : s.Mirrors on callers f) :
    (s.weightsStep on).Mirrors on callers callers (f.weightsStep on) := by
  rw [Session.weightsStep, Session.weightsStep, ← mirrors.selector, ← mirrors.now]
  cases here : s.selector? on with
  | none => exact ⟨mirrors, rfl, rfl, mirrors.metering⟩
  | some p => exact ⟨mirrors.setSelector here _, rfl, rfl, mirrors.metering⟩

theorem Mirrors.doneStep (mirrors : s.Mirrors on callers f) {call : Nat}
    (own : callers[call]? = some on) (outcome : Outcome) :
    (s.doneStep call outcome).Mirrors on callers callers
      (f.doneStep (rank callers on call) outcome) := by
  rw [Session.doneStep, Session.doneStep, ← mirrors.calls.own own]
  cases opened : s.calls.get? call with
  | none => exact ⟨mirrors, rfl, rfl, mirrors.metering⟩
  | some handle =>
    obtain ⟨target, ticket⟩ := handle
    have same : target = on := by
      rw [mirrors.calls.caller opened, Option.some.injEq] at own
      exact own
    subst same
    dsimp only
    rw [← mirrors.selector, ← mirrors.now]
    cases here : s.selector? target with
    | none => exact ⟨mirrors, rfl, rfl, mirrors.metering⟩
    | some p =>
      obtain ⟨same, events⟩ := p.complete_journal ticket s.now outcome s.journal f.journal
      dsimp only
      rw [same, events]
      exact ⟨(mirrors.setSelector here _).setCalls (mirrors.calls.drop own) _ _, rfl, rfl,
        mirrors.metering⟩

theorem Mirrors.selectStep (mirrors : s.Mirrors on callers f) (context : CallContext) (draw : Draw) :
    (s.step (.select on context draw)).Mirrors on callers
      (callers ++ (s.caller? (.select on context draw)).toList) (f.step (.select on context draw)) := by
  rw [caller?, returned?, Session.step, Session.step, Session.selectStep, Session.selectStep,
    ← mirrors.selector, ← mirrors.now]
  cases here : s.selector? on with
  | none =>
    refine ⟨?_, rfl, rfl, mirrors.metering⟩
    show Mirrors on (callers ++ []) s f
    rwa [List.append_nil]
  | some p =>
    dsimp only
    cases (p.select context s.now draw).result with
    | error e =>
      refine ⟨?_, rfl, rfl, mirrors.metering⟩
      show Mirrors on (callers ++ []) _ _
      rw [List.append_nil]
      exact mirrors.setSelector here _
    | ok served =>
      refine ⟨(mirrors.setSelector here _).setCalls (mirrors.calls.put _) _ _, ?_, rfl,
        mirrors.metering⟩
      rw [mirrors.calls.count]
      rfl

theorem append_caller?_of_none {step : Step} (nobody : s.caller? step = none) :
    callers ++ (s.caller? step).toList = callers := by
  rw [nobody, Option.toList_none, List.append_nil]

theorem Mirrors.step (mirrors : s.Mirrors on callers f) {step alone : Step}
    (own : step.of on callers = some alone) :
    (s.step step).Mirrors on callers (callers ++ (s.caller? step).toList) (f.step alone) := by
  cases step with
  | select target context draw =>
    rw [Step.of] at own
    split at own
    · rename_i same
      cases own
      rw [same]
      exact mirrors.selectStep context draw
    · cases own
  | apply target nodes =>
    rw [Step.of] at own
    split at own
    · rename_i same
      cases own
      rw [append_caller?_of_none rfl, same]
      exact mirrors.applyStep nodes
    · cases own
  | weights target =>
    rw [Step.of] at own
    split at own
    · rename_i same
      cases own
      rw [append_caller?_of_none rfl, same]
      exact mirrors.weightsStep
    · cases own
  | done call outcome =>
    rw [Step.of] at own
    split at own
    · rename_i called
      cases own
      rw [append_caller?_of_none rfl]
      exact mirrors.doneStep called outcome
    · cases own
  | setClock value =>
    cases own
    rw [append_caller?_of_none rfl]
    refine ⟨⟨?_, mirrors.metering, mirrors.selector, mirrors.calls⟩, rfl, rfl, mirrors.metering⟩
    rw [Session.step, Session.step, mirrors.clock]
    rfl
  | advanceClock offset =>
    cases own
    rw [append_caller?_of_none rfl]
    refine ⟨⟨?_, mirrors.metering, mirrors.selector, mirrors.calls⟩, rfl, rfl, mirrors.metering⟩
    rw [Session.step, Session.step, mirrors.clock]
    rfl
  | setMetering value =>
    cases own
    rw [append_caller?_of_none rfl]
    exact ⟨⟨mirrors.clock, rfl, mirrors.selector, mirrors.calls⟩, rfl, rfl, rfl⟩

theorem Mirrors.step_other (mirrors : s.Mirrors on callers f) {step : Step}
    (other : step.of on callers = none) :
    (s.step step).session.Mirrors on (callers ++ (s.caller? step).toList) f := by
  cases step with
  | select target context draw =>
    rw [Step.of] at other
    split at other
    · cases other
    · rename_i ne
      rw [caller?, returned?, Session.step, Session.selectStep]
      cases s.selector? target with
      | none =>
        show Mirrors on (callers ++ []) s f
        rwa [List.append_nil]
      | some p =>
        dsimp only
        cases (p.select context s.now draw).result with
        | error e =>
          show Mirrors on (callers ++ []) _ f
          rw [List.append_nil]
          exact mirrors.setSelector_other ne _
        | ok served =>
          exact (mirrors.setSelector_other ne _).setCalls (mirrors.calls.put_other ne _) _ _
  | apply target nodes =>
    rw [Step.of] at other
    split at other
    · cases other
    · rename_i ne
      rw [append_caller?_of_none rfl, Session.step, Session.applyStep]
      cases s.selector? target with
      | none => exact mirrors
      | some p => exact mirrors.setSelector_other ne _
  | weights target =>
    rw [Step.of] at other
    split at other
    · cases other
    · rename_i ne
      rw [append_caller?_of_none rfl, Session.step, Session.weightsStep]
      cases s.selector? target with
      | none => exact mirrors
      | some p => exact mirrors.setSelector_other ne _
  | done call outcome =>
    rw [Step.of] at other
    split at other
    · cases other
    · rename_i ne
      rw [append_caller?_of_none rfl, Session.step, Session.doneStep]
      cases opened : s.calls.get? call with
      | none => exact mirrors
      | some handle =>
        have called := mirrors.calls.caller opened
        have apart : handle.1 ≠ on := fun same => ne (by rw [called, same])
        dsimp only
        cases s.selector? handle.1 with
        | none => exact mirrors
        | some p =>
          exact (mirrors.setSelector_other apart _).setCalls (mirrors.calls.drop_other ne) _ _
  | setClock value => cases other
  | advanceClock offset => cases other
  | setMetering value => cases other

end

end Session
end NodeSelection
