import NodeSelection.Proofs.Session.Independence
import NodeSelection.Proofs.Store.Refinement

/-! Selectors of one builder know nothing of each other, though they share the builder, the store of all
candidates and the handles of open calls. What is seen of one of them in a run is what is seen of it
when the steps on all the others are left out, and the ends of their calls. -/

namespace NodeSelection.Store
open Session (Step)

def after (s : Store) (steps : List Step) : Store := steps.foldl (fun s step => (s.step step).store) s

theorem after_cons (s : Store) (step : Step) (steps : List Step) :
    s.after (step :: steps) = (s.step step).store.after steps := rfl

def caller? (s : Store) : Step → Option Nat
  | .select on context draw =>
    match (s.step (.select on context draw)).answer with
    | .selected _ _ _ => some on
    | _ => none
  | _ => none

def callers (s : Store) : List Step → List Nat
  | [] => []
  | step :: rest => (s.caller? step).toList ++ (s.step step).store.callers rest

/-- What is seen of a turn by somebody who has to do with one selector: the answer, the events and all
that the selector then refers to. -/
structure Seen where
  answer : Session.Answer
  events : List Event
  metered : Bool
  selector : Option View

def Turn.seen (on : Nat) (t : Turn) : Seen := ⟨t.answer, t.events, t.metered, t.store.view? on⟩

/-- What is seen of a run by somebody who has to do with one selector and numbers its calls himself,
and the steps that he has seen. The selectors that made the calls before are given. -/
def concerning (on : Nat) (s : Store) (callers : List Nat) : List Step → List (Seen × Step)
  | [] => []
  | step :: rest =>
    let t := s.step step
    let seen := { t.seen on with answer := t.answer.renumber (callers.count on) }
    (step.of on callers).toList.map (fun alone => (seen, alone)) ++
      concerning on t.store (callers ++ (s.caller? step).toList) rest

def served? (s : Store) (call : Nat) : Option (Candidate × Nat) :=
  (s.calls.get? call).bind fun handle =>
    (s.candidates.get? handle.1).map fun c => (c, handle.2)

section
variable {layout : List Spot} {t : Store} {s : Session} (depicts : Depicts layout t s)
include depicts

theorem Depicts.view? (on : Nat) :
    t.view? on = (s.selector? on).map fun p => ⟨p.wrapping, p.balancer, p.pool⟩ := by
  rw [Store.view?]
  cases here : s.selector? on with
  | none =>
    rw [depicts.selector_none here]
    rfl
  | some p =>
    obtain ⟨parts, found, _, names⟩ := depicts.selector here
    rw [found, Option.map_some, Option.map_some]
    dsimp only
    rw [(depicts.holds here names).candidates]

theorem Depicts.caller? (step : Step) : t.caller? step = s.caller? step := by
  cases step with
  | select on context draw =>
    rw [Store.caller?, (depicts.step (.select on context draw)).answer, Session.caller?,
      Session.returned?]
    cases (s.step (.select on context draw)).answer <;> rfl
  | apply => rfl
  | done => rfl
  | weights => rfl
  | setClock => rfl
  | advanceClock => rfl
  | setMetering => rfl

theorem Depicts.served? (call : Nat) :
    t.served? call = (s.calls.get? call).bind fun handle =>
      (s.candidate? ⟨handle.1, handle.2.generation, handle.2.place⟩).map fun c =>
        (c, handle.2.number) := by
  rw [Store.served?]
  cases opened : t.calls.get? call with
  | none =>
    rw [depicts.closed opened]
    rfl
  | some handle =>
    obtain ⟨spot, known, there⟩ := depicts.opened opened
    rw [there, Option.bind_some, Option.bind_some, depicts.candidate known]

end

/-- Two stores that agree in one selector and in what all of them share. -/
structure Mirrors (on : Nat) (callers : List Nat) (t f : Store) : Prop where
  sessions : ∃ s g, (∃ layout, Depicts layout t s) ∧ (∃ layout, Depicts layout f g) ∧
    s.Mirrors on callers g

section
variable {on : Nat} {callers : List Nat} {t f : Store}

theorem Mirrors.view? (mirrors : t.Mirrors on callers f) : t.view? on = f.view? on := by
  obtain ⟨s, g, ⟨_, one⟩, ⟨_, other⟩, same⟩ := mirrors.sessions
  rw [one.view?, other.view?, same.selector]

theorem Mirrors.served? (mirrors : t.Mirrors on callers f) {call : Nat}
    (own : callers[call]? = some on) : t.served? call = f.served? (rank callers on call) := by
  obtain ⟨s, g, ⟨_, one⟩, ⟨_, other⟩, same⟩ := mirrors.sessions
  rw [one.served?, other.served?, ← same.calls.own own]
  cases opened : s.calls.get? call with
  | none => rfl
  | some handle =>
    have called := same.calls.caller opened
    rw [own, Option.some.injEq] at called
    rw [Option.bind_some, Option.bind_some, Session.candidate?, Session.candidate?, ← called,
      same.selector]

structure Turn.Mirrors (on : Nat) (callers later : List Nat) (t u : Turn) : Prop where
  store : t.store.Mirrors on later u.store
  answer : u.answer = t.answer.renumber (callers.count on)
  events : t.events = u.events
  metered : t.metered = u.metered

theorem Mirrors.step (mirrors : t.Mirrors on callers f) {step alone : Step}
    (own : step.of on callers = some alone) :
    (t.step step).Mirrors on callers (callers ++ (t.caller? step).toList) (f.step alone) := by
  obtain ⟨s, g, ⟨_, one⟩, ⟨_, other⟩, same⟩ := mirrors.sessions
  have turn := same.step own
  have all := one.step step
  have single := other.step alone
  rw [one.caller?]
  exact ⟨⟨_, _, all.store, single.store, turn.session⟩, by rw [single.answer, all.answer, turn.answer],
    by rw [all.events, single.events, turn.events], by rw [all.metered, single.metered, turn.metered]⟩

theorem Mirrors.step_other (mirrors : t.Mirrors on callers f) {step : Step}
    (other : step.of on callers = none) :
    (t.step step).store.Mirrors on (callers ++ (t.caller? step).toList) f := by
  obtain ⟨s, g, ⟨_, one⟩, single, same⟩ := mirrors.sessions
  rw [one.caller?]
  exact ⟨_, _, (one.step step).store, single, same.step_other other⟩

theorem Mirrors.run (mirrors : t.Mirrors on callers f) (steps : List Step) :
    let own := t.concerning on callers steps
    (t.after steps).Mirrors on (callers ++ t.callers steps) (f.after (own.map Prod.snd)) ∧
      own.map Prod.fst = (f.run (own.map Prod.snd)).map (Turn.seen on) := by
  induction steps generalizing t f callers with
  | nil =>
    refine ⟨?_, rfl⟩
    show Mirrors on (callers ++ []) t f
    rwa [List.append_nil]
  | cons step steps ih =>
    intro own
    dsimp only [own]
    rw [concerning, Store.callers, ← List.append_assoc, after_cons]
    cases concerns : step.of on callers with
    | none =>
      rw [Option.toList_none, List.map_nil, List.nil_append]
      exact ih (mirrors.step_other concerns)
    | some alone =>
      have turn := mirrors.step concerns
      obtain ⟨last, seen⟩ := ih turn.store
      refine ⟨last, ?_⟩
      rw [Option.toList_some, List.map_singleton, List.singleton_append, List.map_cons,
        List.map_cons, Store.run, List.map_cons, seen, Turn.seen, Turn.seen, turn.answer,
        turn.events, turn.metered, turn.store.view?]

end

/-- Whatever happens on other selectors, on one of them everything is seen that would be seen if there
had been only its own steps and the ends of its own calls, and the clock and the switch of the
metrics: the same answers, apart from the numbers of calls, the same events, the same balancer and the
same candidates, those in force and those that serve its open calls. All other steps leave these as
they are. -/
theorem selectors_independent (b : Blueprint) (count on : Nat) (steps : List Step) :
    let s := ofBlueprint b count
    let callers := s.callers steps
    let own := s.concerning on [] steps
    let alone := own.map Prod.snd
    own.map Prod.fst = (s.run alone).map (Turn.seen on) ∧
      (s.after steps).now = (s.after alone).now ∧
      (s.after steps).view? on = (s.after alone).view? on ∧
      (∀ call, callers[call]? = some on →
        (s.after steps).served? call = (s.after alone).served? (rank callers on call)) ∧
      ∀ step, step.of on callers = none →
        ((s.after steps).step step).store.view? on = (s.after steps).view? on ∧
          ∀ call, callers[call]? = some on →
            ((s.after steps).step step).store.served? call = (s.after steps).served? call := by
  intro s callers own alone
  have depicts := depicts_ofBlueprint b count
  have start : s.Mirrors on [] s :=
    ⟨_, _, ⟨_, depicts⟩, ⟨_, depicts⟩, rfl, rfl, rfl, Calls.mirrors_empty on⟩
  obtain ⟨mirrors, seen⟩ := start.run steps
  rw [List.nil_append] at mirrors
  refine ⟨seen, ?_, mirrors.view?, fun call called => mirrors.served? called,
    fun step other => ?_⟩
  · obtain ⟨_, _, ⟨_, one⟩, ⟨_, two⟩, same⟩ := mirrors.sessions
    rw [one.now, two.now, same.now]
  · have later := mirrors.step_other other
    refine ⟨later.view?.trans mirrors.view?.symm, fun call called => ?_⟩
    have inside := (List.getElem?_eq_some_iff.1 called).1
    rw [later.served? (getElem?_append_of_eq_some called _), rank_append (Nat.le_of_lt inside),
      mirrors.served? called]

end NodeSelection.Store
