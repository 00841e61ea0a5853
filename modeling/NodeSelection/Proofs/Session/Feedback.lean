import Mathlib.Data.List.Forall2
import NodeSelection.Proofs.Session.Ended

/-! What a report says of its call reaches a session only as a verdict, and over fixed candidates not
even that. So runs whose reports have the same verdicts differ in nothing but the log and what the
rules were asked: not in a selection, a weight, a statistic or a metric. Where there is a rule of the
user's, the errors of the calls that end are put to it, each one once, and nothing is put to the
standard rule. -/

namespace NodeSelection

/-- A journal after some more errors were put to the rule in force. -/
def Journal.note (j : Journal) (rule : Option Classifier) (errors : List CallError) : Journal :=
  match rule with
  | some _ => { j with user := j.user ++ errors }
  | none => { j with standard := j.standard ++ errors }

theorem Journal.note_nil (j : Journal) (rule : Option Classifier) : j.note rule [] = j := by
  cases rule <;> simp [note]

theorem Journal.note_append (j : Journal) (rule : Option Classifier) (one other : List CallError) :
    j.note rule (one ++ other) = (j.note rule one).note rule other := by
  cases rule <;> simp [note]

namespace Outcome

/-- Whether an outcome counts against its node: the error decides, by the rule of the user where there
is one and by the standard rule otherwise. -/
def counts (rule : Option Classifier) (o : Outcome) : Bool :=
  o.error.any (rule.getD CallError.isNodeFailure)

theorem isFailure_eq (o : Outcome) (rule : Option Classifier) (journal : Journal) :
    o.isFailure rule journal = (o.counts rule, journal.note rule o.error.toList) := by
  rw [isFailure, counts]
  cases o.error with
  | none => rw [Option.toList_none, journal.note_nil, Option.any_none]
  | some error => cases rule <;> rfl

end Outcome

/-- Outcomes that a candidate cannot tell apart. Fixed candidates learn nothing at all. -/
def Wrapping.Alike : Wrapping → Outcome → Outcome → Prop
  | .fixed _, _, _ => True
  | .adaptive tuning, o, o' => o.counts tuning.classifier = o'.counts tuning.classifier

theorem Candidate.complete_alike {c : Candidate} {o o' : Outcome} (alike : c.wrapping.Alike o o')
    (number : Nat) (now : Int) (journal : Journal) :
    (c.complete number now o journal).1 = (c.complete number now o' journal).1 := by
  cases c with
  | fixed node defaultWeight lastPick => rfl
  | adaptive node tuning stats =>
    rw [complete, complete, Outcome.isFailure_eq, Outcome.isFailure_eq, alike]

theorem Pool.complete_alike {w : Wrapping} {p : Pool} (wrapped : p.Wrapped w) {o o' : Outcome}
    (alike : w.Alike o o') (place number : Nat) (now : Int) (journal : Journal) :
    (p.complete place number now o journal).1 = (p.complete place number now o' journal).1 := by
  rw [complete, complete]
  cases here : p.get? place with
  | none => rfl
  | some c =>
    rw [← wrapped place c here] at alike
    dsimp only
    rw [Candidate.complete_alike alike number now]

namespace Selector
variable {s : Selector}

theorem complete_alike (wrapped : s.Wrapped) {o o' : Outcome} (alike : s.wrapping.Alike o o')
    (ticket : Ticket) (now : Int) (journal : Journal) :
    (s.complete ticket now o journal).selector = (s.complete ticket now o' journal).selector := by
  rw [complete, complete]
  cases found : s.generationPool? ticket.generation with
  | none => rfl
  | some pool =>
    dsimp only
    rw [Pool.complete_alike (wrapped _ pool found) alike]

theorem complete_fixed (wrapped : s.Wrapped) {defaultWeight : Int}
    (fixed : s.wrapping = .fixed defaultWeight) (ticket : Ticket) (now : Int) (outcome : Outcome)
    (journal : Journal) : s.complete ticket now outcome journal = ⟨s, none, [], journal⟩ := by
  rw [complete]
  cases found : s.generationPool? ticket.generation with
  | none => rfl
  | some pool =>
    dsimp only
    rw [Pool.complete]
    cases here : pool.get? ticket.place with
    | none =>
      dsimp only
      rw [setGenerationPool_self found]
      rfl
    | some c =>
      have kind := wrapped _ pool found _ c here
      rw [fixed] at kind
      cases c with
      | fixed node defaultWeight lastPick =>
        dsimp only [Candidate.complete]
        rw [Pool.set_self here, setGenerationPool_self found]
        rfl
      | adaptive node tuning stats => cases kind

end Selector

def Wrapping.note : Wrapping → Journal → List CallError → Journal
  | .fixed _, j, _ => j
  | .adaptive tuning, j, errors => j.note tuning.classifier errors

theorem Wrapping.note_nil (w : Wrapping) (j : Journal) : w.note j [] = j := by
  cases w with
  | fixed defaultWeight => rfl
  | adaptive tuning => exact j.note_nil tuning.classifier

theorem Wrapping.note_append (w : Wrapping) (j : Journal) (one other : List CallError) :
    w.note j (one ++ other) = w.note (w.note j one) other := by
  cases w with
  | fixed defaultWeight => rfl
  | adaptive tuning => exact j.note_append tuning.classifier one other

theorem Candidate.journal_complete (c : Candidate) (number : Nat) (now : Int) (outcome : Outcome)
    (journal : Journal) :
    (c.complete number now outcome journal).2.2 =
      c.wrapping.note journal outcome.error.toList := by
  cases c with
  | fixed node defaultWeight lastPick => rfl
  | adaptive node tuning stats =>
    rw [complete, Outcome.isFailure_eq]
    rfl

namespace Session

/-- Steps that are the same but for what a report says besides its verdict. -/
inductive Step.Alike (w : Wrapping) : Step → Step → Prop
  | same (step : Step) : Alike w step step
  | done (call : Nat) {o o' : Outcome} (alike : w.Alike o o') :
      Alike w (.done call o) (.done call o')

def forget (s : Session) : Session := { s with journal := .empty }

theorem forget_eq {s t : Session} (clock : s.clock = t.clock) (metering : s.metering = t.metering)
    (selectors : s.selectors = t.selectors) (calls : s.calls = t.calls) : s.forget = t.forget := by
  rw [forget, forget, clock, metering, selectors, calls]

structure Turn.Alike (t u : Turn) : Prop where
  session : t.session.forget = u.session.forget
  answer : t.answer = u.answer
  metered : t.metered = u.metered
  metrics : t.observation.metrics = u.observation.metrics

theorem Turn.Alike.refl (t : Turn) : t.Alike t := ⟨rfl, rfl, rfl, rfl⟩

theorem Turn.Alike.symm {t u : Turn} (alike : t.Alike u) : u.Alike t :=
  ⟨alike.session.symm, alike.answer.symm, alike.metered.symm, alike.metrics.symm⟩

theorem Turn.Alike.trans {t u v : Turn} (one : t.Alike u) (other : u.Alike v) : t.Alike v :=
  ⟨one.session.trans other.session, one.answer.trans other.answer, one.metered.trans other.metered,
    one.metrics.trans other.metrics⟩

theorem step_forget (s : Session) (step : Step) : (s.step step).Alike (s.forget.step step) := by
  cases step with
  | apply on nodes =>
    have same : s.forget.selector? on = s.selector? on := rfl
    rw [Session.step, Session.step, applyStep, applyStep, same]
    cases s.selector? on <;> exact ⟨rfl, rfl, rfl, rfl⟩
  | select on context draw =>
    have same : s.forget.selector? on = s.selector? on := rfl
    have now : s.forget.now = s.now := rfl
    rw [Session.step, Session.step, selectStep, selectStep, same, now]
    cases s.selector? on with
    | none => exact ⟨rfl, rfl, rfl, rfl⟩
    | some p =>
      dsimp only
      cases (p.select context s.now draw).result <;> exact ⟨rfl, rfl, rfl, rfl⟩
  | done call outcome =>
    have opened : s.forget.calls.get? call = s.calls.get? call := rfl
    have now : s.forget.now = s.now := rfl
    rw [Session.step, Session.step, doneStep, doneStep, opened, now]
    cases s.calls.get? call with
    | none => exact ⟨rfl, rfl, rfl, rfl⟩
    | some handle =>
      have same : s.forget.selector? handle.1 = s.selector? handle.1 := rfl
      dsimp only
      rw [same]
      cases s.selector? handle.1 with
      | none => exact ⟨rfl, rfl, rfl, rfl⟩
      | some p =>
        obtain ⟨selector, events⟩ :=
          p.complete_journal handle.2 s.now outcome s.journal s.forget.journal
        refine ⟨forget_eq rfl rfl ?_ rfl, rfl, rfl, ?_⟩
        · dsimp only
          rw [selector]
          rfl
        · rw [Turn.observation, Turn.observation]
          dsimp only
          rw [events]
          rfl
  | weights on =>
    have same : s.forget.selector? on = s.selector? on := rfl
    have now : s.forget.now = s.now := rfl
    rw [Session.step, Session.step, weightsStep, weightsStep, same, now]
    cases s.selector? on <;> exact ⟨rfl, rfl, rfl, rfl⟩
  | setClock value => exact ⟨rfl, rfl, rfl, rfl⟩
  | advanceClock offset => exact ⟨rfl, rfl, rfl, rfl⟩
  | setMetering value => exact ⟨rfl, rfl, rfl, rfl⟩

/-- Where a call was and how long it took are no matter of its report. -/
theorem metrics_done (s : Session) (call : Nat) (o o' : Outcome) :
    (s.step (.done call o)).events.filterMap Event.metric? =
      (s.step (.done call o')).events.filterMap Event.metric? := by
  rw [events_done, events_done, ended?, ended?]
  cases s.calls.get? call with
  | none => rfl
  | some handle =>
    dsimp only [Option.bind_some]
    cases s.selector? handle.1 with
    | none => rfl
    | some p =>
      dsimp only [Option.bind_some]
      cases p.candidate? handle.2.generation handle.2.place with
      | none => rfl
      | some c => cases c <;> rfl

section
variable {w : Wrapping} {s : Session}

theorem Wrapped.done_alike (wrapped : s.Wrapped w) (call : Nat) {o o' : Outcome}
    (alike : w.Alike o o') : (s.step (.done call o)).Alike (s.step (.done call o')) := by
  have metrics := metrics_done s call o o'
  rw [Session.step, Session.step, doneStep, doneStep] at metrics ⊢
  cases opened : s.calls.get? call with
  | none => exact .refl _
  | some handle =>
    obtain ⟨on, ticket⟩ := handle
    rw [opened] at metrics
    dsimp only at metrics ⊢
    cases here : s.selector? on with
    | none => exact .refl _
    | some p =>
      rw [here] at metrics
      dsimp only at metrics ⊢
      obtain ⟨wrapping, all⟩ := wrapped on p here
      rw [← wrapping] at alike
      rw [Selector.complete_alike all alike]
      refine ⟨forget_eq rfl rfl rfl rfl, rfl, rfl, ?_⟩
      rw [Turn.observation, Observation.ofEvents, Turn.observation, Observation.ofEvents]
      dsimp only
      rw [metrics]

theorem Wrapped.step_alike (wrapped : s.Wrapped w) {one other : Step} (alike : one.Alike w other) :
    (s.step one).Alike (s.step other) := by
  cases alike with
  | same => exact .refl _
  | done call alike => exact wrapped.done_alike call alike

theorem Wrapped.run_alike (wrapped : s.Wrapped w) {f : Session} (same : s.forget = f.forget)
    {some others : List Step} (alike : List.Forall₂ (Step.Alike w) some others) :
    List.Forall₂ Turn.Alike (s.run some) (f.run others) := by
  induction alike generalizing s f with
  | nil => exact .nil
  | @cons one other _ _ first _ ih =>
    have turn : (s.step one).Alike (f.step other) := by
      have blind := s.step_forget other
      rw [same] at blind
      exact ((wrapped.step_alike first).trans blind).trans (f.step_forget other).symm
    rw [run, run]
    exact .cons turn (ih (wrapped.step one) turn.session)

theorem Wrapped.done_fixed {defaultWeight : Int} (wrapped : s.Wrapped (.fixed defaultWeight))
    (call : Nat) (o o' : Outcome) :
    s.step (.done call o) = s.step (.done call o') ∧
      (s.step (.done call o)).session.selectors = s.selectors ∧
      (s.step (.done call o)).events = [] := by
  rw [Session.step, Session.step, doneStep, doneStep]
  cases s.calls.get? call with
  | none => exact ⟨rfl, rfl, rfl⟩
  | some handle =>
    obtain ⟨on, ticket⟩ := handle
    dsimp only
    cases here : s.selector? on with
    | none => exact ⟨rfl, rfl, rfl⟩
    | some p =>
      obtain ⟨fixed, all⟩ := wrapped on p here
      dsimp only
      rw [Selector.complete_fixed all fixed, Selector.complete_fixed all fixed,
        setSelector_self here]
      exact ⟨rfl, rfl, rfl⟩

theorem Wrapped.run_fixed {defaultWeight : Int} (wrapped : s.Wrapped (.fixed defaultWeight))
    {some others : List Step} (alike : List.Forall₂ (Step.Alike (.fixed defaultWeight)) some others) :
    s.run some = s.run others := by
  induction alike generalizing s with
  | nil => rfl
  | cons first _ ih =>
    rw [run, run]
    cases first with
    | same => rw [ih (wrapped.step _)]
    | done call => rw [(wrapped.done_fixed call _ _).1, ih (wrapped.step _)]

end

def reported? (s : Session) : Step → Option CallError
  | .done call outcome => (s.calls.get? call).bind fun _ => outcome.error
  | _ => none

theorem journal_step {b : Blueprint} {count : Nat} {steps : List Step} (step : Step) :
    let s := (ofBlueprint b count).after steps
    (s.step step).session.journal = b.wrapping.note s.journal (s.reported? step).toList := by
  intro s
  cases step with
  | apply on nodes =>
    rw [Session.step, applyStep]
    refine Eq.trans ?_ (Wrapping.note_nil _ _).symm
    cases s.selector? on <;> rfl
  | select on context draw =>
    rw [Session.step, selectStep]
    refine Eq.trans ?_ (Wrapping.note_nil _ _).symm
    cases s.selector? on with
    | none => rfl
    | some p =>
      dsimp only
      cases (p.select context s.now draw).result <;> rfl
  | done call outcome =>
    rw [Session.step, doneStep, reported?]
    cases opened : s.calls.get? call with
    | none => exact (Wrapping.note_nil _ _).symm
    | some handle =>
      obtain ⟨on, ticket⟩ := handle
      obtain ⟨p, c, here, candidate, wrapping⟩ := exists_candidate opened
      dsimp only
      rw [here, Option.bind_some, ← wrapping]
      dsimp only
      rw [Selector.journal_complete candidate, c.journal_complete]
  | weights on =>
    rw [Session.step, weightsStep]
    refine Eq.trans ?_ (Wrapping.note_nil _ _).symm
    cases s.selector? on <;> rfl
  | setClock value => exact (Wrapping.note_nil _ _).symm
  | advanceClock offset => exact (Wrapping.note_nil _ _).symm
  | setMetering value => exact (Wrapping.note_nil _ _).symm

theorem journal_after (b : Blueprint) (count : Nat) (first steps : List Step) :
    let s := (ofBlueprint b count).after first
    (s.after steps).journal =
      b.wrapping.note s.journal ((s.history steps).filterMap fun x => x.1.reported? x.2) := by
  intro s
  induction steps generalizing first with
  | nil => exact (Wrapping.note_nil _ _).symm
  | cons step steps ih =>
    have later := ih (first ++ [step])
    rw [after_append] at later
    rw [after_cons, history, filterMap_cons_toList, Wrapping.note_append, ← journal_step]
    exact later

theorem failed_of_completion? {b : Blueprint} {count : Nat} {steps : List Step}
    {tuning : Ewma.Tuning Float} (adaptive : b.wrapping = .adaptive tuning) {rule : Classifier}
    (custom : tuning.classifier = some rule) {call : Nat} {outcome : Outcome} {shown : Completion}
    (told : ((ofBlueprint b count).after steps).completion? (.done call outcome) = some shown) :
    shown.failed = outcome.error.any rule := by
  rw [completion?_eq] at told
  obtain ⟨e, ended, rfl⟩ := Option.map_eq_some_iff.1 told
  obtain ⟨⟨handle, opened⟩, _⟩ := (exists_ended_iff b count steps call outcome).1 ⟨e, ended⟩
  obtain ⟨same, found, verdict⟩ := exists_ended adaptive opened outcome
  rw [ended, Option.some.injEq] at found
  rw [found, verdict, custom, Outcome.isFailure_eq]
  rfl

/-- Runs whose reports have the same verdicts go alike, in their selections, weights, statistics
and metrics; fixed candidates do not even take notice of a report. A rule of the user's is asked
about the errors of the calls that end, one by one, its answer alone is the verdict, and the standard
rule is not asked at all. -/
theorem verdict_suffices (b : Blueprint) (count : Nat) {steps others : List Step}
    (alike : List.Forall₂ (Step.Alike b.wrapping) steps others) :
    let s := ofBlueprint b count
    List.Forall₂ Turn.Alike (s.run steps) (s.run others) ∧
      (∀ defaultWeight, b.wrapping = .fixed defaultWeight →
        s.run steps = s.run others ∧ (s.after steps).journal = .empty ∧
          ∀ call outcome,
            ((s.after steps).step (.done call outcome)).session.selectors =
                (s.after steps).selectors ∧
              ((s.after steps).step (.done call outcome)).events = []) ∧
      ∀ tuning rule, b.wrapping = .adaptive tuning → tuning.classifier = some rule →
        (s.after steps).journal.user =
            (s.history steps).filterMap (fun x => x.1.reported? x.2) ∧
          (s.after steps).journal.standard = [] ∧
          ∀ call outcome shown, (s.after steps).completion? (.done call outcome) = some shown →
            shown.failed = outcome.error.any rule := by
  intro s
  have wrapped := wrapped_ofBlueprint b count
  have journal := journal_after b count [] steps
  refine ⟨wrapped.run_alike rfl alike, fun defaultWeight fixed => ?_,
    fun tuning rule adaptive custom => ?_⟩
  · rw [fixed] at wrapped alike journal
    exact ⟨wrapped.run_fixed alike, journal, fun call outcome =>
      ((wrapped.after steps).done_fixed call outcome outcome).2⟩
  · rw [adaptive] at journal
    dsimp only [Wrapping.note] at journal
    rw [custom] at journal
    exact ⟨congrArg Journal.user journal, congrArg Journal.standard journal,
      fun call outcome shown told => failed_of_completion? adaptive custom told⟩

/-- By a rule that knows one status code, a call that fails with another one is as good as a call
that succeeds. -/
theorem verdict_suffices_unknown_code :
    let tuning : Ewma.Tuning Float := .ofNanos Ewma.defaultTau Ewma.defaultPenalty
      (some (Classifier.listing [500] []))
    let b : Blueprint := ⟨.adaptive tuning, .twoChoices defaultForceAfter false⟩
    let report (o : Outcome) : List Step :=
      [.apply 0 [Node.bare "http" "a"], .select 0 .empty ⟨(0, 0), 0⟩, .done 0 o, .weights 0]
    let missing : Outcome := .failed (.status 404 "not found")
    let success : Outcome := ⟨none, none, true, true⟩
    List.Forall₂ (Step.Alike b.wrapping) (report missing) (report success) ∧
      List.Forall₂ Turn.Alike ((ofBlueprint b 1).run (report missing))
        ((ofBlueprint b 1).run (report success)) ∧
      ((ofBlueprint b 1).after (report missing)).journal.user = [.status 404 "not found"] := by
  intro tuning b report missing success
  have verdict : missing.counts tuning.classifier = success.counts tuning.classifier := by decide
  have alike : List.Forall₂ (Step.Alike b.wrapping) (report missing) (report success) :=
    .cons (.same _) (.cons (.same _) (.cons (.done 0 verdict) (.cons (.same _) .nil)))
  obtain ⟨alike', _, rules⟩ := verdict_suffices b 1 alike
  exact ⟨alike, alike', (rules tuning _ rfl rfl).1⟩

end Session
end NodeSelection
