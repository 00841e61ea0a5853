import NodeSelection.Proofs.Session.Wrapping
import NodeSelection.Proofs.Session.Reset

/-! Calls that come to their end. A run is read as its history, in which every step stands with the
session that it finds. The end of a call shows only where its candidate is adaptive; then there is
one event of it, with the address of the candidate and the latency that the candidate was told. -/

namespace NodeSelection

namespace Selector

theorem completion_complete (s : Selector) (ticket : Ticket) (now : Int) (outcome : Outcome)
    (journal : Journal) :
    (s.complete ticket now outcome journal).completion =
      (s.candidate? ticket.generation ticket.place).bind fun c =>
        (c.complete ticket.number now outcome journal).2.1 := by
  rw [complete, candidate?]
  cases s.generationPool? ticket.generation with
  | none => rfl
  | some pool =>
    dsimp only [Option.bind_some]
    rw [Pool.complete]
    cases pool.get? ticket.place <;> rfl

theorem events_complete (s : Selector) (ticket : Ticket) (now : Int) (outcome : Outcome)
    (journal : Journal) :
    (s.complete ticket now outcome journal).events =
      ((s.candidate? ticket.generation ticket.place).bind fun c =>
        (c.complete ticket.number now outcome journal).2.1.map fun e =>
          Event.finished c.address e.latency (outcome.failureText? e.failed)).toList := by
  rw [complete, candidate?]
  cases s.generationPool? ticket.generation with
  | none => rfl
  | some pool =>
    dsimp only [Option.bind_some]
    rw [Pool.complete, Pool.address]
    cases pool.get? ticket.place with
    | none => rfl
    | some c =>
      dsimp only [Option.bind_some]
      cases (c.complete ticket.number now outcome journal).2.1 <;> rfl

theorem journal_complete {s : Selector} {ticket : Ticket} {c : Candidate}
    (here : s.candidate? ticket.generation ticket.place = some c) (now : Int) (outcome : Outcome)
    (journal : Journal) :
    (s.complete ticket now outcome journal).journal =
      (c.complete ticket.number now outcome journal).2.2 := by
  obtain ⟨pool, found, place⟩ := Option.bind_eq_some_iff.1 here
  rw [complete, found]
  dsimp only
  rw [Pool.complete, place]

end Selector

namespace Session

/-- The steps of a run, each with the session that it finds. -/
def history (s : Session) : List Step → List (Session × Step)
  | [] => []
  | step :: rest => (s, step) :: (s.step step).session.history rest

theorem run_eq_map_history (s : Session) (steps : List Step) :
    s.run steps = (s.history steps).map fun x => x.1.step x.2 := by
  induction steps generalizing s with
  | nil => rfl
  | cons step steps ih => rw [run, ih, history, List.map_cons]

theorem exists_after_of_mem_history {s : Session} {steps : List Step} {x : Session × Step}
    (member : x ∈ s.history steps) :
    ∃ first rest, steps = first ++ x.2 :: rest ∧ x.1 = s.after first := by
  induction steps generalizing s with
  | nil => cases member
  | cons step steps ih =>
    cases member with
    | head => exact ⟨[], steps, rfl, rfl⟩
    | tail _ member =>
      obtain ⟨first, rest, split, found⟩ := ih member
      exact ⟨step :: first, rest, by rw [split, List.cons_append], found⟩

/-- The end of a call on an adaptive candidate. -/
structure Ended extends Completion where
  call : Nat
  address : String

def ended? (s : Session) : Step → Option Ended
  | .done call outcome =>
    (s.calls.get? call).bind fun handle =>
      (s.selector? handle.1).bind fun p =>
        match p.candidate? handle.2.generation handle.2.place with
        | some (.adaptive node tuning stats) =>
          some ⟨⟨stats.latency handle.2.number s.now,
            (outcome.isFailure tuning.classifier s.journal).1⟩, call, node.address⟩
        | _ => none
  | _ => none

theorem exists_call {s : Session} {step : Step} {e : Ended} (ended : s.ended? step = some e) :
    ∃ outcome on ticket p node tuning stats, step = .done e.call outcome ∧
      s.calls.get? e.call = some (on, ticket) ∧ s.selector? on = some p ∧
      p.candidate? ticket.generation ticket.place = some (.adaptive node tuning stats) ∧
      e.address = node.address ∧ e.latency = stats.latency ticket.number s.now ∧
      e.failed = (outcome.isFailure tuning.classifier s.journal).1 := by
  cases step with
  | done call outcome =>
    obtain ⟨⟨on, ticket⟩, opened, rest⟩ := Option.bind_eq_some_iff.1 ended
    obtain ⟨p, here, shown⟩ := Option.bind_eq_some_iff.1 rest
    dsimp only at shown
    cases candidate : p.candidate? ticket.generation ticket.place with
    | none =>
      rw [candidate] at shown
      cases shown
    | some c =>
      rw [candidate] at shown
      cases c with
      | fixed => cases shown
      | adaptive node tuning stats =>
        cases shown
        exact ⟨outcome, on, ticket, p, node, tuning, stats, rfl, opened, here, candidate, rfl, rfl, rfl⟩
  | apply => cases ended
  | select => cases ended
  | weights => cases ended
  | setClock => cases ended
  | advanceClock => cases ended
  | setMetering => cases ended

def completion? (s : Session) : Step → Option Completion
  | .done call outcome =>
    (s.calls.get? call).bind fun handle =>
      (s.selector? handle.1).bind fun p => (p.complete handle.2 s.now outcome s.journal).completion
  | _ => none

theorem completion?_eq (s : Session) (step : Step) :
    s.completion? step = (s.ended? step).map Ended.toCompletion := by
  cases step with
  | done call outcome =>
    rw [completion?, ended?]
    cases s.calls.get? call with
    | none => rfl
    | some handle =>
      dsimp only [Option.bind_some]
      cases s.selector? handle.1 with
      | none => rfl
      | some p =>
        dsimp only [Option.bind_some]
        rw [p.completion_complete]
        cases p.candidate? handle.2.generation handle.2.place with
        | none => rfl
        | some c => cases c <;> rfl
  | apply => rfl
  | select => rfl
  | weights => rfl
  | setClock => rfl
  | advanceClock => rfl
  | setMetering => rfl

theorem events_done (s : Session) (call : Nat) (outcome : Outcome) :
    (s.step (.done call outcome)).events =
      ((s.ended? (.done call outcome)).map fun e =>
        Event.finished e.address e.latency (outcome.failureText? e.failed)).toList := by
  rw [step, doneStep, ended?]
  cases s.calls.get? call with
  | none => rfl
  | some handle =>
    obtain ⟨on, ticket⟩ := handle
    dsimp only [Option.bind_some]
    cases s.selector? on with
    | none => rfl
    | some p =>
      dsimp only [Option.bind_some]
      rw [p.events_complete ticket s.now outcome s.journal]
      cases p.candidate? ticket.generation ticket.place with
      | none => rfl
      | some c => cases c <;> rfl

/-- An open call of a session that has been run from its start leads to a candidate, which was made
as its selector makes them. -/
theorem exists_candidate {b : Blueprint} {count : Nat} {steps : List Step} {call on : Nat}
    {ticket : Ticket}
    (opened : ((ofBlueprint b count).after steps).calls.get? call = some (on, ticket)) :
    ∃ p c, ((ofBlueprint b count).after steps).selector? on = some p ∧
      p.candidate? ticket.generation ticket.place = some c ∧ c.wrapping = b.wrapping := by
  obtain ⟨p, nodes, here, set, inside⟩ := leads_ofBlueprint b count steps opened
  obtain ⟨c, candidate⟩ := Selector.exists_candidate set inside
  obtain ⟨pool, found, place⟩ := Option.bind_eq_some_iff.1 candidate
  obtain ⟨wrapping, wrapped⟩ := (wrapped_ofBlueprint b count).after steps on p here
  exact ⟨p, c, here, candidate, (wrapped _ pool found _ c place).trans wrapping⟩

theorem exists_ended {b : Blueprint} {count : Nat} {steps : List Step} {tuning : Ewma.Tuning Float}
    (adaptive : b.wrapping = .adaptive tuning) {call : Nat} {handle : Nat × Ticket}
    (opened : ((ofBlueprint b count).after steps).calls.get? call = some handle)
    (outcome : Outcome) :
    ∃ e, ((ofBlueprint b count).after steps).ended? (.done call outcome) = some e ∧
      e.failed =
        (outcome.isFailure tuning.classifier ((ofBlueprint b count).after steps).journal).1 := by
  obtain ⟨on, ticket⟩ := handle
  obtain ⟨p, c, here, candidate, wrapping⟩ := exists_candidate opened
  rw [adaptive] at wrapping
  rw [ended?, opened, Option.bind_some, here, Option.bind_some, candidate]
  cases c with
  | fixed => cases wrapping
  | adaptive node own stats =>
    cases wrapping
    exact ⟨_, rfl, rfl⟩

/-- It is the calls on adaptive candidates whose end is told of, each time that one ends. -/
theorem exists_ended_iff (b : Blueprint) (count : Nat) (steps : List Step) (call : Nat)
    (outcome : Outcome) :
    (∃ e, ((ofBlueprint b count).after steps).ended? (.done call outcome) = some e) ↔
      (∃ handle, ((ofBlueprint b count).after steps).calls.get? call = some handle) ∧
        ∃ tuning, b.wrapping = .adaptive tuning := by
  constructor
  · rintro ⟨e, ended⟩
    obtain ⟨_, on, ticket, p, node, tuning, stats, same, opened, here, candidate, _⟩ :=
      exists_call ended
    cases same
    obtain ⟨q, c, there, found, wrapping⟩ := exists_candidate opened
    rw [here, Option.some.injEq] at there
    rw [← there, candidate, Option.some.injEq] at found
    exact ⟨⟨_, opened⟩, tuning, by rw [← wrapping, ← found]; rfl⟩
  · rintro ⟨⟨handle, opened⟩, tuning, adaptive⟩
    obtain ⟨e, ended, _⟩ := exists_ended adaptive opened outcome
    exact ⟨e, ended⟩

end Session
end NodeSelection
